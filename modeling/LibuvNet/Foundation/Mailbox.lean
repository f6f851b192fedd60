import LibuvNet.Foundation.FrameCodec
import Mathlib.Logic.Relation

/-!
# Mailboxes and the byte streams that carry them

What a reliable connection is for, seen from one direction: messages are posted at one end and
fetched at the other, each once and in the order in which they were posted.  A `Mailbox` is that
and nothing else.  Its two steps reach exactly the mailboxes that extend it and stay in order.

A stream of symbols carries a mailbox when one end has encoded the posted messages into it and the
other has decoded what it received so far: `Conveys` says how far it has got.  Sending more and
receiving a chunk, of whatever size, keep it.
-/

namespace LibuvNet.Foundation

/-- What was posted and what was fetched of it, oldest first. -/
structure Mailbox (μ : Type*) where
  posted : List μ
  fetched : List μ
  deriving DecidableEq, Repr

namespace Mailbox

variable {μ : Type*}

/-- What was fetched is what was posted first. -/
def InOrder (mailbox : Mailbox μ) : Prop := mailbox.fetched <+: mailbox.posted

/-- Nothing is left to fetch. -/
def Cleared (mailbox : Mailbox μ) : Prop := mailbox.fetched = mailbox.posted

instance [DecidableEq μ] (mailbox : Mailbox μ) : Decidable mailbox.InOrder :=
  inferInstanceAs (Decidable (mailbox.fetched <+: mailbox.posted))

instance [DecidableEq μ] (mailbox : Mailbox μ) : Decidable mailbox.Cleared :=
  inferInstanceAs (Decidable (mailbox.fetched = mailbox.posted))

/-- Somebody posts a message, or the oldest message that was not fetched is fetched. -/
inductive Step (mailbox : Mailbox μ) : Mailbox μ → Prop
  | post (message : μ) : Step mailbox ⟨mailbox.posted ++ [message], mailbox.fetched⟩
  | fetch (message : μ) (later : List μ)
      (hposted : mailbox.posted = mailbox.fetched ++ message :: later) :
      Step mailbox ⟨mailbox.posted, mailbox.fetched ++ [message]⟩

/-- What any number of steps leads to. -/
def Reaches : Mailbox μ → Mailbox μ → Prop := Relation.ReflTransGen Step

namespace Reaches

variable {mailbox next last : Mailbox μ}

theorem refl (mailbox : Mailbox μ) : mailbox.Reaches mailbox := Relation.ReflTransGen.refl

theorem trans (hfirst : mailbox.Reaches next) (hsecond : next.Reaches last) :
    mailbox.Reaches last :=
  Relation.ReflTransGen.trans hfirst hsecond

/-- Messages may be posted at any time. -/
theorem post (mailbox : Mailbox μ) (messages : List μ) :
    mailbox.Reaches ⟨mailbox.posted ++ messages, mailbox.fetched⟩ := by
  induction messages generalizing mailbox with
  | nil =>
    rw [List.append_nil]
    exact refl mailbox
  | cons message messages ih =>
    have hlater := ih ⟨mailbox.posted ++ [message], mailbox.fetched⟩
    rw [List.append_assoc, List.singleton_append] at hlater
    exact Relation.ReflTransGen.head (.post message) hlater

/-- Posted messages may be fetched as far as one likes. -/
theorem fetch {mailbox : Mailbox μ} {messages : List μ}
    (hposted : mailbox.fetched ++ messages <+: mailbox.posted) :
    mailbox.Reaches ⟨mailbox.posted, mailbox.fetched ++ messages⟩ := by
  induction messages generalizing mailbox with
  | nil =>
    rw [List.append_nil]
    exact refl mailbox
  | cons message messages ih =>
    obtain ⟨later, hlater⟩ := hposted
    have hfront : mailbox.posted = mailbox.fetched ++ message :: (messages ++ later) := by
      rw [← hlater, List.append_assoc, List.cons_append]
    have hrest : mailbox.fetched ++ [message] ++ messages <+: mailbox.posted :=
      ⟨later, by rw [← hlater, List.append_assoc mailbox.fetched, List.singleton_append]⟩
    have hfetched : Reaches ⟨mailbox.posted, mailbox.fetched ++ [message]⟩
        ⟨mailbox.posted, mailbox.fetched ++ [message] ++ messages⟩ := ih hrest
    rw [List.append_assoc, List.singleton_append] at hfetched
    exact Relation.ReflTransGen.head (.fetch message _ hfront) hfetched

theorem posted (hreaches : mailbox.Reaches next) : mailbox.posted <+: next.posted := by
  induction hreaches with
  | refl => exact List.prefix_rfl
  | tail _ hstep ih =>
    cases hstep with
    | post message => exact ih.trans (List.prefix_append _ _)
    | fetch message later hposted => exact ih

theorem fetched (hreaches : mailbox.Reaches next) : mailbox.fetched <+: next.fetched := by
  induction hreaches with
  | refl => exact List.prefix_rfl
  | tail _ hstep ih =>
    cases hstep with
    | post message => exact ih
    | fetch message later hposted => exact ih.trans (List.prefix_append _ _)

theorem inOrder (hreaches : mailbox.Reaches next) (horder : mailbox.InOrder) : next.InOrder := by
  induction hreaches with
  | refl => exact horder
  | @tail before _ _ hstep ih =>
    cases hstep with
    | post message => exact List.IsPrefix.trans ih (List.prefix_append _ _)
    | fetch message later hposted =>
      exact ⟨later, by rw [hposted, List.append_assoc, List.singleton_append]⟩

end Reaches

/-- The steps of a mailbox that is in order reach whatever extends it and is in order. -/
theorem reaches_iff {mailbox next : Mailbox μ} (horder : mailbox.InOrder) :
    mailbox.Reaches next ↔
      mailbox.posted <+: next.posted ∧ mailbox.fetched <+: next.fetched ∧ next.InOrder := by
  constructor
  · exact fun hreaches ↦ ⟨hreaches.posted, hreaches.fetched, hreaches.inOrder horder⟩
  · rintro ⟨⟨posted, hposted⟩, ⟨fetched, hfetched⟩, hnext⟩
    have hpost := Reaches.post mailbox posted
    rw [hposted] at hpost
    have hfetch : Reaches ⟨next.posted, mailbox.fetched⟩ next := by
      have hall : (⟨next.posted, mailbox.fetched⟩ : Mailbox μ).Reaches
          ⟨next.posted, mailbox.fetched ++ fetched⟩ :=
        Reaches.fetch (hfetched ▸ hnext)
      rwa [hfetched] at hall
    exact hpost.trans hfetch

end Mailbox

namespace FrameCodec

variable {α β γ : Type*} (codec : FrameCodec α β γ)

/-- The messages of one end on their way to the other: the symbols emitted are a front of their
stream, and of those received so far the decoder has found what they hold and keeps the rest. -/
structure Conveys (messages : List γ) (emitted : List α) (received : ℕ) (found : List β)
    (held : List α) : Prop where
  front : emitted <+: codec.stream messages
  within : received ≤ emitted.length
  found : ∃ first second, messages = first ++ second ∧ found = first.map codec.value ∧
    emitted.take received = codec.stream first ++ held ∧ codec.scan held = .more

namespace Conveys

variable {codec} {messages : List γ} {emitted : List α} {received : ℕ} {found : List β}
  {held : List α}

/-- Nothing was sent yet. -/
theorem start : codec.Conveys [] [] 0 [] [] where
  front := List.prefix_rfl
  within := le_rfl
  found := ⟨[], [], rfl, rfl, rfl, codec.scan_nil⟩

/-- More messages are sent, and more of them is emitted. -/
theorem send (hconveys : codec.Conveys messages emitted received found held) (more : List γ)
    {further : List α} (hfurther : emitted <+: further)
    (hstream : further <+: codec.stream (messages ++ more)) :
    codec.Conveys (messages ++ more) further received found held where
  front := hstream
  within := le_trans hconveys.within hfurther.length_le
  found := by
    obtain ⟨first, second, hmessages, hfound, htake, hmore⟩ := hconveys.found
    obtain ⟨rest, rfl⟩ := hfurther
    refine ⟨first, second ++ more, ?_, hfound, ?_, hmore⟩
    · rw [hmessages, List.append_assoc]
    · rw [List.take_append_of_le_length hconveys.within, htake]

/-- A chunk of what was emitted arrives. -/
theorem receive (hconveys : codec.Conveys messages emitted received found held) {chunk : List α}
    (hchunk : chunk <+: emitted.drop received) :
    codec.Conveys messages emitted (received + chunk.length)
      (found ++ (codec.parse (held ++ chunk)).values) (codec.kept (held ++ chunk)) := by
  have hlength := hchunk.length_le
  rw [List.length_drop] at hlength
  have hwithin := hconveys.within
  obtain ⟨first, second, hmessages, hfound, htake, -⟩ := hconveys.found
  -- What the receiver holds now is a front of the stream of what it has not found.
  obtain ⟨rest, hrest⟩ : held ++ chunk <+: codec.stream second := by
    obtain ⟨rest, hrest⟩ := hconveys.front
    obtain ⟨later, hlater⟩ := hchunk
    have hsplit : codec.stream first ++ (held ++ chunk ++ (later ++ rest)) =
        codec.stream first ++ codec.stream second :=
      calc codec.stream first ++ (held ++ chunk ++ (later ++ rest))
          = emitted.take received ++ (chunk ++ later) ++ rest := by
            rw [htake]
            simp only [List.append_assoc]
        _ = codec.stream first ++ codec.stream second := by
            rw [hlater, List.take_append_drop, hrest, hmessages, codec.stream_append]
    exact ⟨later ++ rest, List.append_cancel_left hsplit⟩
  obtain ⟨between, behind, tail, rfl, hfront, hmore, -⟩ := codec.stream_split hrest
  have hclean := codec.clean_stream_append between hmore
  refine ⟨hconveys.front, by omega, first ++ between, behind, ?_, ?_, ?_, ?_⟩
  · rw [hmessages, List.append_assoc]
  · rw [hfound, hfront, codec.parse_stream_append between hmore, List.map_append]
  · have hmoretaken : emitted.take (received + chunk.length) = emitted.take received ++ chunk := by
      rw [List.take_add, ← List.prefix_iff_eq_take.mp hchunk]
    rw [hmoretaken, htake, List.append_assoc, hfront, codec.kept_of_clean hclean,
      codec.parse_stream_append between hmore, codec.stream_append, List.append_assoc]
  · rw [hfront, codec.kept_of_clean hclean, codec.parse_stream_append between hmore]
    exact hmore

/-- What was found is a front of what was sent. -/
theorem inOrder (hconveys : codec.Conveys messages emitted received found held) :
    Mailbox.InOrder ⟨messages.map codec.value, found⟩ := by
  obtain ⟨first, second, rfl, rfl, -⟩ := hconveys.found
  exact ⟨second.map codec.value, List.map_append.symm⟩

/-- Once the whole stream has been received, everything was found and nothing is held. -/
theorem cleared (hconveys : codec.Conveys messages emitted received found held)
    (hall : received = (codec.stream messages).length) :
    Mailbox.Cleared ⟨messages.map codec.value, found⟩ ∧ held = [] := by
  have hwhole : emitted = codec.stream messages :=
    hconveys.front.eq_of_length_le (hall ▸ hconveys.within)
  obtain ⟨first, second, hmessages, rfl, htake, hmore⟩ := hconveys.found
  rw [hwhole, hall, List.take_length, hmessages, codec.stream_append] at htake
  obtain rfl := List.append_cancel_left htake
  obtain rfl := codec.eq_nil_of_scan_stream hmore
  rw [List.append_nil] at hmessages
  exact ⟨by rw [Mailbox.Cleared, hmessages], rfl⟩

end Conveys

end FrameCodec

end LibuvNet.Foundation
