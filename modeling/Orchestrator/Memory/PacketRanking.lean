import Mathlib.Data.List.Perm.Basic
import Orchestrator.Memory.Packet

/-! # What a memory packet holds

A packet has the first records of each ranking, within its caps, and cards only beside all lessons
that the cap admits. It does not depend on the order of the rows in the files, where records that
tie are the same.
-/

namespace Orchestrator.Memory

open Orchestrator.Foundation

/-! ## The rankings -/

/-- A lesson goes before another: by trust, by the touched paths that it names, by the preference of
the node, by recency and by its id. -/
def LessonBefore (context : PacketContext) : LongTermRow → LongTermRow → Prop :=
  Lexed (ByKeyDown fun row => trustRank row.trustLevel) <|
    Lexed (ByKeyDown (LongTermRow.overlap context)) <|
      Lexed (ByKey (reviewerPlace context)) <|
        Lexed (ByKeyDown LongTermRow.recency) <| Lexed (ByKey LongTermRow.idText) fun _ _ => True

/-- A card goes before another: by the touched paths that it names, by trust and by its id. -/
def EntityBefore (context : PacketContext) : EntityRow → EntityRow → Prop :=
  Lexed (ByKeyDown (EntityRow.overlap context)) <|
    Lexed (ByKeyDown fun row => trustRank row.trustLevel) <|
      Lexed (ByKey EntityRow.idText) fun _ _ => True

/-- A ranking of some rows. -/
structure Ranked {α : Type} (before : α → α → Prop) (eligible ranked : List α) : Prop where
  same : ranked.Perm eligible
  sorted : ranked.Pairwise before

section Rankings

variable (tiers : Tiers) (context : PacketContext)

theorem ranked_selectLongTerm :
    Ranked (LessonBefore context) (eligibleLongTerm tiers context)
      (selectLongTerm tiers context) := by
  constructor
  · rw [selectLongTerm]
    refine (List.perm_insertionSort _ _).trans ((List.perm_insertionSort _ _).trans ?_)
    refine (List.perm_insertionSort _ _).trans ((List.perm_insertionSort _ _).trans ?_)
    exact List.perm_insertionSort _ _
  · apply pairwise_insertionSort_lexed (ranks_byKeyDown _)
    apply pairwise_insertionSort_lexed (ranks_byKeyDown _)
    apply pairwise_insertionSort_lexed (ranks_byKey _)
    apply pairwise_insertionSort_lexed (ranks_byKeyDown _)
    apply pairwise_insertionSort_lexed (ranks_byKey _)
    exact List.pairwise_of_forall fun _ _ => trivial

theorem ranked_selectEntities :
    Ranked (EntityBefore context) (eligibleEntities tiers) (selectEntities tiers context) := by
  constructor
  · rw [selectEntities]
    refine (List.perm_insertionSort _ _).trans ((List.perm_insertionSort _ _).trans ?_)
    exact List.perm_insertionSort _ _
  · apply pairwise_insertionSort_lexed (ranks_byKeyDown _)
    apply pairwise_insertionSort_lexed (ranks_byKeyDown _)
    apply pairwise_insertionSort_lexed (ranks_byKey _)
    exact List.pairwise_of_forall fun _ _ => trivial

end Rankings

/-- Records that tie in a ranking are the same. -/
def NoTies {α : Type} (before : α → α → Prop) (rows : List α) : Prop :=
  ∀ first ∈ rows, ∀ second ∈ rows, before first second → before second first → first = second

/-- Rankings of the same rows are the same where no two rows tie. -/
theorem Ranked.unique {α : Type} {before : α → α → Prop}
    {eligible others ranked rankedOthers : List α}
    (ranking : Ranked before eligible ranked) (other : Ranked before others rankedOthers)
    (noTies : NoTies before eligible) (same : eligible.Perm others) : ranked = rankedOthers := by
  refine eq_of_perm_of_pairwise ?_ ranking.sorted other.sorted
    (ranking.same.trans (same.trans other.same.symm))
  intro first among second amongToo
  exact noTies first (ranking.same.mem_iff.mp among) second (ranking.same.mem_iff.mp amongToo)

/-! ## The order of the rows -/

/-- The same rows in every file. -/
structure SameRows (tiers others : Tiers) : Prop where
  longTerm : ∀ kind, (tiers.readLongTerm kind).Perm (others.readLongTerm kind)
  entities : tiers.readEntities.Perm others.readEntities
  pending : tiers.readPending.Perm others.readPending

theorem SameRows.eligibleLongTerm {tiers others : Tiers} (same : SameRows tiers others)
    (context : PacketContext) :
    (Memory.eligibleLongTerm tiers context).Perm (Memory.eligibleLongTerm others context) := by
  apply List.Perm.append
  · apply List.Perm.filter
    exact List.Perm.flatMap_left _ fun kind _ => same.longTerm kind
  · exact (same.pending.filterMap _).filter _

theorem SameRows.eligibleEntities {tiers others : Tiers} (same : SameRows tiers others) :
    (Memory.eligibleEntities tiers).Perm (Memory.eligibleEntities others) :=
  same.entities.filter _

/-- No two records that are eligible tie. -/
structure Untied (tiers : Tiers) (context : PacketContext) : Prop where
  longTerm : NoTies (LessonBefore context) (eligibleLongTerm tiers context)
  entities : NoTies (EntityBefore context) (eligibleEntities tiers)

theorem buildPacket_eq {tiers others : Tiers} (same : SameRows tiers others)
    {context : PacketContext} (untied : Untied tiers context) (config : PacketConfig) :
    buildPacket config tiers context = buildPacket config others context := by
  have lessons := (ranked_selectLongTerm tiers context).unique
    (ranked_selectLongTerm others context) untied.longTerm (same.eligibleLongTerm context)
  have cards := (ranked_selectEntities tiers context).unique
    (ranked_selectEntities others context) untied.entities same.eligibleEntities
  rw [buildPacket, buildPacket, lessons, cards]

/-! ## The caps -/

theorem sliceTo_isPrefix {α : Type} (cap : Int) (rows : List α) : sliceTo cap rows <+: rows := by
  rw [sliceTo]
  split
  · exact List.take_prefix _ _
  · exact List.take_prefix _ _

theorem length_sliceTo_le {α : Type} {cap : Int} (room : 0 ≤ cap) (rows : List α) :
    ((sliceTo cap rows).length : Int) ≤ cap := by
  rw [sliceTo, if_pos room]
  have taken := List.length_take_le cap.toNat rows
  omega

section Fit

variable (text : TextFunctions) (config : PacketConfig)

/-- What is left of a packet: cards are dropped before lessons, and the last ones first. -/
structure Kept (packet fitted : SelectedPacket) : Prop where
  lessons : fitted.longTerm <+: packet.longTerm
  cards : fitted.entities <+: packet.entities
  cardsFirst : fitted.longTerm = packet.longTerm ∨ fitted.entities = []

theorem kept_dropLowest {packet current : SelectedPacket} (kept : Kept packet current) :
    Kept packet (dropLowest current) := by
  rw [dropLowest]
  split
  · next none =>
    exact ⟨(List.dropLast_prefix _).trans kept.lessons, kept.cards, .inr (List.isEmpty_iff.mp none)⟩
  · next some =>
    refine ⟨kept.lessons, (List.dropLast_prefix _).trans kept.cards, .inl ?_⟩
    exact kept.cardsFirst.resolve_right fun none => some (List.isEmpty_iff.mpr none)

theorem kept_fitWithin {packet current : SelectedPacket} (kept : Kept packet current)
    (drops : Nat) : Kept packet (fitWithin text config drops current) := by
  induction drops generalizing current with
  | zero => exact kept
  | succ drops ih =>
      rw [fitWithin]
      split
      · exact ih (kept_dropLowest kept)
      · exact kept

/-- With a drop for each record, the packet fits or is empty. -/
theorem fits_fitWithin {packet : SelectedPacket} {drops : Nat}
    (enough : packet.longTerm.length + packet.entities.length ≤ drops) :
    (fitWithin text config drops packet).isEmpty = true ∨
      ((renderLines text (fitWithin text config drops packet)).length : Int) ≤
        config.packetMaxLines := by
  induction drops generalizing packet with
  | zero =>
      have noLesson : packet.longTerm = [] := List.length_eq_zero_iff.mp (by omega)
      have noCard : packet.entities = [] := List.length_eq_zero_iff.mp (by omega)
      refine .inl ?_
      rw [fitWithin, SelectedPacket.isEmpty, noLesson, noCard]
      rfl
  | succ drops ih =>
      rw [fitWithin]
      split
      · next long =>
        refine ih ?_
        have some := long.1
        rw [SelectedPacket.isEmpty, Bool.and_eq_false_iff, List.isEmpty_eq_false_iff,
          List.isEmpty_eq_false_iff, ← List.length_pos_iff, ← List.length_pos_iff] at some
        rw [dropLowest]
        split
        · next none =>
          have noCard := List.isEmpty_iff.mp none
          simp only [List.length_dropLast, noCard, List.length_nil] at enough some ⊢
          omega
        · next cards =>
          have card := List.length_pos_iff.mpr fun none => cards (List.isEmpty_iff.mpr none)
          simp only [List.length_dropLast]
          omega
      · next fits =>
        rw [not_and_or, Bool.not_eq_false, Int.not_lt] at fits
        exact fits

end Fit

/-! ## The packet -/

/-- What a packet for a node holds. -/
structure PacketHolds (text : TextFunctions) (config : PacketConfig) (tiers : Tiers)
    (context : PacketContext) (packet : SelectedPacket) : Prop where
  lessons : ∃ ranked, Ranked (LessonBefore context) (eligibleLongTerm tiers context) ranked ∧
    packet.longTerm <+: ranked
  cards : ∃ ranked, Ranked (EntityBefore context) (eligibleEntities tiers) ranked ∧
    packet.entities <+: ranked
  cardsFirst : packet.entities ≠ [] →
    packet.longTerm = sliceTo config.packetMaxLongTerm (selectLongTerm tiers context)
  lessonCap : 0 ≤ config.packetMaxLongTerm →
    (packet.longTerm.length : Int) ≤ config.packetMaxLongTerm
  cardCap : 0 ≤ entityCap config context.nodeId →
    (packet.entities.length : Int) ≤ entityCap config context.nodeId
  lines : packet.isEmpty = true ∨
    ((renderLines text packet).length : Int) ≤ config.packetMaxLines
  anyOrder : Untied tiers context → ∀ others, SameRows tiers others →
    packetFor text config others context = packet

/-- A packet has the first records of each ranking within its caps, whatever the order of the rows
in the files where no two eligible records tie. -/
theorem packetHolds_packetFor (text : TextFunctions) (config : PacketConfig) (tiers : Tiers)
    (context : PacketContext) :
    PacketHolds text config tiers context (packetFor text config tiers context) := by
  have whole : Kept (buildPacket config tiers context) (buildPacket config tiers context) :=
    ⟨List.prefix_rfl, List.prefix_rfl, .inl rfl⟩
  have kept := kept_fitWithin text config whole
    ((buildPacket config tiers context).longTerm.length +
      (buildPacket config tiers context).entities.length)
  have lessons : (buildPacket config tiers context).longTerm <+: selectLongTerm tiers context :=
    sliceTo_isPrefix _ _
  have cards : (buildPacket config tiers context).entities <+: selectEntities tiers context :=
    sliceTo_isPrefix _ _
  constructor
  · exact ⟨_, ranked_selectLongTerm tiers context, kept.lessons.trans lessons⟩
  · exact ⟨_, ranked_selectEntities tiers context, kept.cards.trans cards⟩
  · exact fun some => kept.cardsFirst.resolve_right some
  · intro room
    have short := kept.lessons.length_le
    have bound := length_sliceTo_le room (selectLongTerm tiers context)
    exact (Int.ofNat_le.mpr short).trans bound
  · intro room
    have short := kept.cards.length_le
    have bound := length_sliceTo_le room (selectEntities tiers context)
    exact (Int.ofNat_le.mpr short).trans bound
  · exact fits_fitWithin text config (Nat.le_refl _)
  · intro untied others same
    rw [packetFor, packetFor, buildPacket_eq same untied config]

/-! ## Cards with one id -/

def plainText : TextFunctions := ⟨id, id, fun text => [text], fun _ => true, id⟩

/-- A card of a file, under an id that a model has chosen. -/
def cardOf (path : String) : EntityRow where
  entityId := some "scheduler"
  entityType := some "module"
  canonicalName := some path
  trustLevel := .repoObserved
  paths := [path]
  status := some "active"

def twoCards : Tiers := { entities := some [cardOf "core/watch.py", cardOf "core/queue.py"] }

def twoCardsSwapped : Tiers := { entities := some [cardOf "core/queue.py", cardOf "core/watch.py"] }

/-- Cards of two files with one id and nothing else to rank them by stand as in the file. -/
theorem twoCards_order : SameRows twoCards twoCardsSwapped ∧
    packetFor plainText {} twoCards ⟨"planning", []⟩ ≠
      packetFor plainText {} twoCardsSwapped ⟨"planning", []⟩ := by
  refine ⟨⟨fun _ => List.Perm.refl _, List.Perm.swap _ _ _, List.Perm.refl _⟩, ?_⟩
  decide +kernel

end Orchestrator.Memory
