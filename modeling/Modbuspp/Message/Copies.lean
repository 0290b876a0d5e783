import Modbuspp.Library.Handles
import Modbuspp.Message.Clearing
import Modbuspp.Message.Payload
import Modbuspp.Message.RequestPayload

/-!
# Copies of messages

A message is a handle on its private state. A copy has a state of its own, so that a change of the one is
never seen in the other. The equality operator compares the pointers to the buffers of the two ADUs and
not the bytes in them, so that it tells a message from its copy.
-/

namespace Modbuspp

open Handles

namespace Message

/-- Two messages with the same ADU: the same size and the same bytes. -/
def SameAdu (msg other : Message) : Prop :=
  msg.aduSize = other.aduSize ∧ msg.adu.take msg.aduSize = other.adu.take other.aduSize

instance (msg other : Message) : Decidable (msg.SameAdu other) :=
  inferInstanceAs (Decidable (_ ∧ _))

/-- A call that changes a message, with the layer as it is at that moment. -/
inductive Modification where
  | operation (op : Operation) (layer : NetLayer)
  | setAduSize (size : ℕ)
  /-- A byte that is written through the pointer that `adu` returns. -/
  | store (index : ℕ) (value : UInt8)
  | request (call : Request.Call)
  | response (call : Response.Call)

/-- The message after a modification. -/
def Modification.perform (modification : Modification) (msg : Message) : Except Fault Message :=
  match modification with
  | .operation op layer => (op.run (msg, layer)).map Prod.fst
  | .setAduSize size => .ok (msg.setAduSize size)
  | .store index value => do
      let adu ← checked (Storage.write msg.adu index value)
      return { msg with adu }
  | .request call => call.perform msg
  | .response call => call.perform msg

/-- The message after a call, or as it was when the call does not return. -/
def Modification.apply (modification : Modification) (msg : Message) : Message :=
  match modification.perform msg with
  | .ok after => after
  | .error _ => msg

/-- The private state of a message, and whether its vector has storage. A vector that has elements has
storage; one that was copied from an empty vector has none. -/
structure Object where
  msg : Message
  allocated : Bool
  storage : allocated = false → msg.adu = []

namespace Object

/-- The state that a constructor makes, whose vector has had the size of an ADU. -/
def ofMessage (msg : Message) : Object := { msg, allocated := true, storage := nofun }

/-- The copy of an object, which shares nothing with it. -/
def copy (object : Object) : Object where
  msg := object.msg
  allocated := decide (object.msg.adu ≠ [])
  storage := by simp

/-- The object after a modification. -/
def modify (modification : Modification) (object : Object) : Object where
  msg := modification.apply object.msg
  allocated := object.allocated || decide ((modification.apply object.msg).adu ≠ [])
  storage := by simp

end Object

/-- The variables of a program, and the one that the assignment makes. -/
inductive Variable where
  | named (name : ℕ)
  | temporary
deriving DecidableEq

/-- The messages of a program. A message that was moved from owns no state. -/
abbrev Messages := Store Variable Object

/-- A step of a program. A variable that is constructed again has gone out of scope before. -/
inductive Action where
  | construct (name : ℕ) (origin : Origin) (content : Content)
  | copyConstruct (name other : ℕ)
  | assign (name other : ℕ)
  | moveConstruct (name other : ℕ)
  | moveAssign (name other : ℕ)
  | swap (name other : ℕ)
  | modify (name : ℕ) (modification : Modification)
  | destroy (name : ℕ)

end Message

namespace Message.Messages

/-- The messages after a step. A constructor may throw, and nothing can be done with a state that is
missing. -/
def step (messages : Messages) : Action → Messages
  | .construct name origin content =>
      match create origin content with
      | .ok msg => messages.emplace (.named name) (.ofMessage msg)
      | .error _ => messages
  | .copyConstruct name other =>
      match messages.get (.named other) with
      | some object => messages.emplace (.named name) object.copy
      | none => messages
  | .assign name other =>
      match messages.get (.named other) with
      | some object =>
          ((messages.emplace .temporary object.copy).swap .temporary (.named name)).release .temporary
      | none => messages
  | .moveConstruct name other => messages.move (.named name) (.named other)
  | .moveAssign name other => messages.move (.named name) (.named other)
  | .swap name other => messages.swap (.named name) (.named other)
  | .modify name modification => messages.modify (.named name) (Object.modify modification)
  | .destroy name => messages.release (.named name)

/-- The messages after the actions of a program. -/
def run (messages : Messages) (actions : List Action) : Messages := actions.foldl step messages

/-- `Message::adu`: the pointer to the elements of the vector, which is null without storage. Each
private state has its vector, so the pointer is named by the address of the state. -/
def adu (messages : Messages) (name : ℕ) : Option (Option ℕ) := do
  let address ← messages.owns (.named name)
  let object ← messages.heap address
  return if object.allocated then some address else none

/-- `operator==`, if both messages have a state. -/
def equal (messages : Messages) (name other : ℕ) : Option Bool := do
  let others ← messages.adu other
  let mine ← messages.adu name
  return others == mine

/-- `operator!=`. -/
def notEqual (messages : Messages) (name other : ℕ) : Option Bool := do
  let same ← messages.equal name other
  return !same

/-- Two messages are equal when they have the same ADU, the other operator is the negation, and a change
of the one leaves the other as it is. -/
structure Lawful (messages : Messages) (name other : ℕ) (mine others : Object) : Prop where
  equal_iff : messages.equal name other = some true ↔ mine.msg.SameAdu others.msg
  notEqual : ∃ same, messages.equal name other = some same ∧
    messages.notEqual name other = some !same
  independent : name ≠ other → ∀ modification,
    (messages.step (.modify name modification)).get (.named other) = some others ∧
      (messages.step (.modify other modification)).get (.named name) = some mine

variable {messages : Messages} {name other : ℕ} {mine others : Object}

theorem named_ne_temporary (name : ℕ) : Variable.named name ≠ .temporary := nofun

theorem sound_step (sound : messages.Sound) (action : Action) : (messages.step action).Sound := by
  cases action with
  | construct name origin content =>
      simp only [step]
      split
      · exact sound.emplace _ _
      · exact sound
  | copyConstruct name other =>
      simp only [step]
      split
      · exact sound.emplace _ _
      · exact sound
  | assign name other =>
      simp only [step]
      split
      · exact ((sound.emplace _ _).swap _ _).release _
      · exact sound
  | moveConstruct name other => exact sound.move _ _
  | moveAssign name other => exact sound.move _ _
  | swap name other => exact sound.swap _ _
  | modify name modification => exact sound.modify _ _
  | destroy name => exact sound.release _

theorem sound_run (sound : messages.Sound) (actions : List Action) :
    (messages.run actions).Sound := by
  induction actions generalizing messages with
  | nil => exact sound
  | cons action actions ih => exact ih (sound_step sound action)

/-- The pointer of a message with a state. -/
theorem adu_of_get (found : messages.get (.named name) = some mine) :
    ∃ address, messages.owns (.named name) = some address ∧
      messages.adu name = some (if mine.allocated then some address else none) := by
  rcases Option.bind_eq_some_iff.mp found with ⟨address, owned, held⟩
  refine ⟨address, owned, ?_⟩
  simp only [adu, owned, Option.bind_eq_bind, Option.bind_some, held]
  rfl

/-- Only a message and itself are equal, or two without storage. -/
theorem equal_cases (sound : messages.Sound) (first : messages.get (.named name) = some mine)
    (second : messages.get (.named other) = some others) :
    ∃ same, messages.equal name other = some same ∧
      (same = true ↔ name = other ∨ mine.allocated = false ∧ others.allocated = false) := by
  rcases adu_of_get first with ⟨p, firstOwns, firstAdu⟩
  rcases adu_of_get second with ⟨q, secondOwns, secondAdu⟩
  refine ⟨_, by rw [equal, firstAdu, secondAdu]; rfl, ?_⟩
  rw [beq_iff_eq]
  have owners : p = q ↔ name = other := by
    constructor
    · rintro rfl
      exact Variable.named.inj (sound.sole _ _ p firstOwns secondOwns)
    · rintro rfl
      exact Option.some.inj (firstOwns.symm.trans secondOwns)
  have states : name = other → mine = others := by
    rintro rfl
    exact Option.some.inj (first.symm.trans second)
  cases mineStored : mine.allocated with
  | false =>
      cases othersStored : others.allocated with
      | false => simp
      | true =>
          simp only [Bool.false_eq_true, if_false, if_true, reduceCtorEq, false_iff, and_false, or_false]
          intro same
          rw [states same, othersStored] at mineStored
          cases mineStored
  | true =>
      cases othersStored : others.allocated with
      | false =>
          simp only [Bool.false_eq_true, if_false, if_true, reduceCtorEq, false_iff, false_and, or_false]
          intro same
          rw [states same, othersStored] at mineStored
          cases mineStored
      | true =>
          simp only [if_true, Option.some.injEq, reduceCtorEq, false_and, or_false, ← owners, eq_comm]

theorem sameAdu_of_bare (bare : mine.allocated = false) (othersBare : others.allocated = false) :
    mine.msg.SameAdu others.msg ↔ mine.msg.aduSize = others.msg.aduSize := by
  rw [SameAdu, mine.storage bare, others.storage othersBare]
  simp only [List.take_nil, and_true]

/-- A modification goes to one message only. -/
theorem get_modify_other (sound : messages.Sound) (apart : name ≠ other) (modification : Modification)
    (second : messages.get (.named other) = some others) :
    (messages.step (.modify name modification)).get (.named other) = some others := by
  have differ : Variable.named other ≠ .named name := by
    intro same
    exact apart (Variable.named.inj same).symm
  exact (Store.get_modify_of_ne sound differ).trans second

/-- In every state that a program reaches, the operators compare two messages as they should exactly
when these are one message, have no storage and equal sizes, or have different ADUs. -/
theorem comparison_lawful_iff (actions : List Action)
    (first : (run .empty actions).get (.named name) = some mine)
    (second : (run .empty actions).get (.named other) = some others) :
    Lawful (run .empty actions) name other mine others ↔
      name = other ∨
        (mine.allocated = false ∧ others.allocated = false ∧
          mine.msg.aduSize = others.msg.aduSize) ∨
        ((mine.allocated = true ∨ others.allocated = true) ∧ ¬mine.msg.SameAdu others.msg) := by
  have sound := sound_run Store.sound_empty actions
  generalize run .empty actions = messages at *
  rcases equal_cases sound first second with ⟨same, compared, same_iff⟩
  have negation : ∃ same, messages.equal name other = some same ∧
      messages.notEqual name other = some !same := by
    refine ⟨same, compared, ?_⟩
    rw [Messages.notEqual, compared]
    rfl
  have independent : name ≠ other → ∀ modification,
      (messages.step (.modify name modification)).get (.named other) = some others ∧
        (messages.step (.modify other modification)).get (.named name) = some mine := by
    intro apart modification
    exact ⟨get_modify_other sound apart modification second,
      get_modify_other sound (Ne.symm apart) modification first⟩
  have lawful : Lawful messages name other mine others ↔
      ((name = other ∨ mine.allocated = false ∧ others.allocated = false) ↔
        mine.msg.SameAdu others.msg) := by
    rw [← same_iff]
    constructor
    · rintro ⟨equal_iff, _, _⟩
      rw [compared, Option.some.injEq] at equal_iff
      exact equal_iff
    · intro equal_iff
      exact ⟨by rw [compared, Option.some.injEq]; exact equal_iff, negation, independent⟩
  rw [lawful]
  by_cases itself : name = other
  · subst itself
    have states : mine = others := Option.some.inj (first.symm.trans second)
    subst states
    simp only [true_or, true_iff, iff_true]
    exact ⟨rfl, rfl⟩
  · simp only [itself, false_or]
    cases bare : mine.allocated with
    | true => simp
    | false =>
        cases othersBare : others.allocated with
        | true => simp
        | false => simp [sameAdu_of_bare bare othersBare]

/-- The request that is copied. -/
def original : Message :=
  { net := .rtu, onWire := nofun, aduSize := 2, isResponse := false, backend := false, transactionId := 1
    adu := [1, 3] }

theorem comparison_lawful_of_changed : Lawful (run .empty
      [.construct 0 (.net .rtu) (.adu [1, 3]), .copyConstruct 1 0, .modify 1 (.store 1 4)]) 1 0
    (Object.modify (.store 1 4) (Object.ofMessage original).copy) (.ofMessage original) :=
  (comparison_lawful_iff
    [.construct 0 (.net .rtu) (.adu [1, 3]), .copyConstruct 1 0, .modify 1 (.store 1 4)] rfl rfl).mpr
      (Or.inr (Or.inr ⟨Or.inl rfl, by decide⟩))

/-- A copy is not equal to the message it was copied from. -/
theorem copy_compares_unequal : ¬ ∀ (actions : List Action) (name other : ℕ) (mine others : Object),
    (run .empty actions).get (.named name) = some mine →
      (run .empty actions).get (.named other) = some others →
        Lawful (run .empty actions) name other mine others := by
  intro lawful
  have copied := lawful [.construct 0 (.net .rtu) (.adu [1, 3]), .copyConstruct 1 0] 1 0
    (Object.ofMessage original).copy (.ofMessage original) rfl rfl
  have unequal : (run .empty [.construct 0 (.net .rtu) (.adu [1, 3]), .copyConstruct 1 0]).equal 1 0 =
      some false := rfl
  have equal := copied.equal_iff.mpr ⟨rfl, rfl⟩
  rw [unequal] at equal
  cases equal

/-- The message that an action gives a new state or changes. -/
def Touches : Action → ℕ → Prop
  | .construct name _ _, x => x = name
  | .copyConstruct name _, x => x = name
  | .assign name _, x => x = name
  | .moveConstruct name other, x => x = name ∨ x = other
  | .moveAssign name other, x => x = name ∨ x = other
  | .swap name other, x => x = name ∨ x = other
  | .modify name _, x => x = name
  | .destroy name, x => x = name

theorem named_ne {x y : ℕ} (apart : x ≠ y) : Variable.named x ≠ .named y :=
  fun same => apart (Variable.named.inj same)

theorem get_assign (sound : messages.Sound) (second : messages.get (.named other) = some others)
    (x : ℕ) : (messages.step (.assign name other)).get (.named x) =
      if x = name then some others.copy else messages.get (.named x) := by
  have emplaced := sound.emplace .temporary others.copy
  simp only [step, second]
  rw [Store.get_release_of_ne (emplaced.swap _ _) (named_ne_temporary x), Store.get_swap]
  split
  · next itself =>
    rw [itself, Equiv.swap_apply_right, Store.get_emplace_self]
  · next apart =>
    rw [Equiv.swap_apply_of_ne_of_ne (named_ne_temporary x) (named_ne apart),
      Store.get_emplace_of_ne sound (named_ne_temporary x)]

/-- A message that a step does not touch has the state it had. -/
theorem get_step_of_not_touches (sound : messages.Sound) {action : Action} {x : ℕ}
    (untouched : ¬Touches action x) :
    (messages.step action).get (.named x) = messages.get (.named x) := by
  cases action with
  | construct name origin content =>
      simp only [step]
      split
      · exact Store.get_emplace_of_ne sound (named_ne untouched)
      · rfl
  | copyConstruct name other =>
      simp only [step]
      split
      · exact Store.get_emplace_of_ne sound (named_ne untouched)
      · rfl
  | assign name other =>
      cases found : messages.get (.named other) with
      | none => simp only [step, found]
      | some object =>
          have apart : x ≠ name := untouched
          rw [get_assign sound found, if_neg apart]
  | moveConstruct name other =>
      simp only [Touches, not_or] at untouched
      exact Store.get_move_of_ne sound (named_ne untouched.1) (named_ne untouched.2)
  | moveAssign name other =>
      simp only [Touches, not_or] at untouched
      exact Store.get_move_of_ne sound (named_ne untouched.1) (named_ne untouched.2)
  | swap name other =>
      simp only [Touches, not_or] at untouched
      simp only [step, Store.get_swap]
      rw [Equiv.swap_apply_of_ne_of_ne (named_ne untouched.1) (named_ne untouched.2)]
  | modify name modification => exact Store.get_modify_of_ne sound (named_ne untouched)
  | destroy name => exact Store.get_release_of_ne sound (named_ne untouched)

theorem get_run_of_not_touches (sound : messages.Sound) {actions : List Action} {x : ℕ}
    (untouched : ∀ action ∈ actions, ¬Touches action x) :
    (messages.run actions).get (.named x) = messages.get (.named x) := by
  induction actions generalizing messages with
  | nil => rfl
  | cons action actions ih =>
      have first := untouched action List.mem_cons_self
      calc (messages.run (action :: actions)).get (.named x)
        _ = (messages.step action).get (.named x) :=
            ih (sound_step sound action) fun later mem => untouched later (List.mem_cons_of_mem _ mem)
        _ = messages.get (.named x) := get_step_of_not_touches sound first

/-- A message that was copied from another one has the same ADU until one of them is touched. -/
theorem sameAdu_of_copied (sound : messages.Sound) (apart : name ≠ other)
    (second : messages.get (.named other) = some others) {copying : Action}
    (copies : copying = .copyConstruct name other ∨ copying = .assign name other)
    {actions : List Action}
    (untouched : ∀ action ∈ actions, ¬Touches action name ∧ ¬Touches action other) :
    ∃ mine theirs, (messages.run (copying :: actions)).get (.named name) = some mine ∧
      (messages.run (copying :: actions)).get (.named other) = some theirs ∧
      mine.msg.SameAdu theirs.msg := by
  have copied : (messages.step copying).get (.named name) = some others.copy ∧
      (messages.step copying).get (.named other) = some others := by
    rcases copies with rfl | rfl
    · simp only [step, second]
      exact ⟨Store.get_emplace_self,
        (Store.get_emplace_of_ne sound (named_ne (Ne.symm apart))).trans second⟩
    · rw [get_assign sound second, get_assign sound second, if_pos rfl, if_neg (Ne.symm apart)]
      exact ⟨rfl, second⟩
  have later := sound_step sound copying
  refine ⟨others.copy, others, ?_, ?_, rfl, rfl⟩
  · exact (get_run_of_not_touches later fun action mem => (untouched action mem).1).trans copied.1
  · exact (get_run_of_not_touches later fun action mem => (untouched action mem).2).trans copied.2

end Message.Messages

end Modbuspp
