import LibuvNet.Foundation.FrameDecoder

/-!
# Frame encoders and lossless streams

A `FrameCodec` is a frame decoder together with an encoder whose output it recognises: an encoded
message is found whole whatever follows it, and no proper part of it is mistaken for anything.
The stream of a list of messages then parses back to that list, and feeding any prefix of the
stream yields exactly the messages whose last symbol has arrived.
-/

namespace LibuvNet.Foundation

/-- A frame decoder with an encoder it undoes.  `value` is what the decoder shows of a message. -/
structure FrameCodec (α β γ : Type*) extends FrameDecoder α β where
  encode : γ → List α
  value : γ → β
  scan_encode_append : ∀ (message : γ) (later : List α),
    scan (encode message ++ later) = .frame (value message) (encode message).length
  scan_partial : ∀ {message : γ} {front back : List α},
    front ++ back = encode message → back ≠ [] → scan front = .more

namespace FrameCodec

variable {α β γ : Type*} (codec : FrameCodec α β γ)

/-- The stream of a list of messages. -/
def stream (messages : List γ) : List α :=
  messages.flatMap codec.encode

@[simp]
theorem stream_nil : codec.stream [] = [] := rfl

@[simp]
theorem stream_cons (message : γ) (messages : List γ) :
    codec.stream (message :: messages) = codec.encode message ++ codec.stream messages :=
  List.flatMap_cons

/-- The messages whose last symbol is among the first `supplied` symbols of the stream. -/
def completed : ℕ → List γ → List γ
  | _, [] => []
  | supplied, message :: messages =>
    if (codec.encode message).length ≤ supplied then
      message :: completed (supplied - (codec.encode message).length) messages
    else []

theorem completed_isPrefix (supplied : ℕ) (messages : List γ) :
    codec.completed supplied messages <+: messages := by
  induction messages generalizing supplied with
  | nil => exact List.prefix_rfl
  | cons message messages ih =>
    unfold completed
    split
    · exact List.cons_prefix_cons.mpr ⟨rfl, ih _⟩
    · exact List.nil_prefix

/-- The symbols of an unfinished message. -/
def Partial (tail : List α) : Prop :=
  ∃ (message : γ) (back : List α), tail ++ back = codec.encode message ∧ back ≠ []

theorem scan_partial_eq_more {tail : List α} (htail : codec.Partial tail) :
    codec.scan tail = .more := by
  obtain ⟨message, back, heq, hback⟩ := htail
  exact codec.scan_partial heq hback

theorem parse_stream_append (messages : List γ) {tail : List α}
    (htail : codec.scan tail = .more) :
    codec.parse (codec.stream messages ++ tail) = ⟨messages.map codec.value, tail⟩ := by
  induction messages with
  | nil => exact codec.parse_of_more htail
  | cons message messages ih =>
    have hscan := codec.scan_encode_append message (codec.stream messages ++ tail)
    calc codec.parse (codec.stream (message :: messages) ++ tail)
        = codec.parse (codec.encode message ++ (codec.stream messages ++ tail)) := by
          rw [stream_cons, List.append_assoc]
      _ = ⟨codec.value message :: (codec.parse (codec.stream messages ++ tail)).values,
            (codec.parse (codec.stream messages ++ tail)).rest⟩ := by
          rw [codec.parse_of_frame hscan, List.drop_left]
      _ = ⟨(message :: messages).map codec.value, tail⟩ := by rw [ih, List.map_cons]

/-- A front of the stream is some whole messages and the front of the next one. -/
theorem stream_split {messages : List γ} {front back : List α}
    (hsplit : front ++ back = codec.stream messages) :
    ∃ first second tail, messages = first ++ second ∧ front = codec.stream first ++ tail ∧
      codec.scan tail = .more ∧ tail ++ back = codec.stream second := by
  induction messages generalizing front with
  | nil =>
    obtain ⟨rfl, rfl⟩ := List.append_eq_nil_iff.mp hsplit
    exact ⟨[], [], [], rfl, rfl, codec.scan_nil, rfl⟩
  | cons message messages ih =>
    rw [stream_cons] at hsplit
    -- The front stops inside the first message, or it goes on behind it.
    rcases List.append_eq_append_iff.mp hsplit with ⟨rest, hmessage, hback⟩ | ⟨rest, hfront, hrest⟩
    · by_cases hnil : rest = []
      · subst hnil
        rw [List.append_nil] at hmessage
        refine ⟨[message], messages, [], rfl, ?_, codec.scan_nil, hback⟩
        rw [stream_cons, stream_nil, List.append_nil, List.append_nil, hmessage]
      · refine ⟨[], message :: messages, front, rfl, rfl, ?_, hsplit⟩
        exact codec.scan_partial hmessage.symm hnil
    · obtain ⟨first, second, tail, rfl, rfl, hmore, htail⟩ := ih hrest.symm
      refine ⟨message :: first, second, tail, rfl, ?_, hmore, htail⟩
      rw [hfront, stream_cons, List.append_assoc]

theorem stream_append (first second : List γ) :
    codec.stream (first ++ second) = codec.stream first ++ codec.stream second :=
  List.flatMap_append

/-- Nothing more is needed of a stream only if there is no message in it. -/
theorem eq_nil_of_scan_stream {messages : List γ}
    (hmore : codec.scan (codec.stream messages) = .more) : messages = [] := by
  cases messages with
  | nil => rfl
  | cons message messages =>
    rw [stream_cons, codec.scan_encode_append] at hmore
    cases hmore

theorem clean_stream_append (messages : List γ) {tail : List α}
    (htail : codec.scan tail = .more) : codec.Clean (codec.stream messages ++ tail) := by
  rw [FrameDecoder.Clean, codec.parse_stream_append messages htail]
  exact htail

/-- A prefix of the stream holds exactly the messages completed in it. -/
theorem parse_take_stream (messages : List γ) {tail : List α} (htail : codec.Partial tail)
    (supplied : ℕ) :
    (codec.parse ((codec.stream messages ++ tail).take supplied)).values =
      (codec.completed supplied messages).map codec.value := by
  induction messages generalizing supplied with
  | nil =>
    obtain ⟨message, back, heq, hback⟩ := htail
    have hsplit : tail.take supplied ++ (tail.drop supplied ++ back) = codec.encode message := by
      rw [← List.append_assoc, List.take_append_drop, heq]
    have hmore : codec.scan (tail.take supplied) = .more :=
      codec.scan_partial hsplit (by simp [hback])
    rw [stream_nil, List.nil_append, codec.parse_of_more hmore]
    rfl
  | cons message messages ih =>
    rw [stream_cons, List.append_assoc, completed]
    by_cases hsize : (codec.encode message).length ≤ supplied
    · have hscan := codec.scan_encode_append message
        ((codec.stream messages ++ tail).take (supplied - (codec.encode message).length))
      rw [if_pos hsize, List.take_append, List.take_of_length_le hsize,
        codec.parse_of_frame hscan, List.drop_left, List.map_cons, ih]
    · have hle : supplied ≤ (codec.encode message).length := by omega
      have hmore : codec.scan ((codec.encode message).take supplied) = .more :=
        codec.scan_partial (List.take_append_drop supplied _) fun hnil ↦
          hsize (List.drop_eq_nil_iff.mp hnil)
      rw [if_neg hsize, List.take_append_of_le_length hle, codec.parse_of_more hmore]
      rfl

/-- **Lossless reassembly.** However the stream of some messages and an unfinished one is cut,
feeding the pieces finds the messages in order and keeps the unfinished part. -/
theorem decode_stream (messages : List γ) {tail : List α} (htail : codec.Partial tail)
    {pieces : List (List α)} (hpieces : pieces.flatten = codec.stream messages ++ tail) :
    codec.decode pieces [] = (messages.map codec.value, tail) := by
  have hmore := codec.scan_partial_eq_more htail
  have hclean := codec.clean_stream_append messages hmore
  rw [codec.decode_eq_parse pieces codec.scan_nil
      (by simpa [hpieces] using codec.endsAtReject_of_clean hclean),
    List.nil_append, hpieces, codec.kept_of_clean hclean, codec.parse_stream_append messages hmore]

/-- After some of the pieces, exactly the messages completed in them have been found. -/
theorem decode_take_stream (messages : List γ) {tail : List α} (htail : codec.Partial tail)
    {pieces : List (List α)} (hpieces : pieces.flatten = codec.stream messages ++ tail)
    (calls : ℕ) :
    (codec.decode (pieces.take calls) []).1 =
      (codec.completed (pieces.take calls).flatten.length messages).map codec.value := by
  have hclean := codec.clean_stream_append messages (codec.scan_partial_eq_more htail)
  have hsplit : (pieces.take calls).flatten ++ (pieces.drop calls).flatten =
      codec.stream messages ++ tail := by
    rw [← List.flatten_append, List.take_append_drop, hpieces]
  have hfront : (pieces.take calls).flatten =
      (codec.stream messages ++ tail).take (pieces.take calls).flatten.length := by
    rw [← hsplit, List.take_left]
  rw [← hsplit] at hclean
  rw [codec.decode_eq_parse _ codec.scan_nil
      (codec.endsAtReject_of_clean (codec.clean_of_clean_append hclean)), List.nil_append]
  conv_lhs => rw [hfront]
  exact codec.parse_take_stream messages htail _

end FrameCodec

end LibuvNet.Foundation
