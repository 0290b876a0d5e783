import Modbuspp.BufferedSlave.Blocks
import Modbuspp.BufferedSlave.Transfers

/-!
# Addresses on the inner link

A request inside the block of its table passes the clamping unchanged, if the block ends at an `int`, so
the relays transfer the right cells. They transfer them at the wrong address unless the request starts at
zero: the address of the request is lost in the condition of a conditional expression.
-/

namespace Modbuspp

namespace Block

variable {α : Type} {block : Block α} {start count : ℤ}

/-- The cells from `start` on lie in the block, as many as `count`. -/
structure Within (block : Block α) (start count : ℤ) : Prop where
  lower : block.start ≤ start
  upper : start < block.start + block.nb
  extent : start + count ≤ block.start + block.nb

/-- A request in the block stays where it is, unless the end of the block wraps around. -/
theorem clamp_of_within (within : block.Within start count) :
    block.clamp start = start ∨ 0 < start ∧ 0 < block.clamp start := by
  have := within.lower
  have := within.upper
  simp only [clamp]
  split <;> omega

theorem clamp_zero (within : block.Within 0 count) : block.clamp 0 = 0 := by
  rcases clamp_of_within within with same | ⟨positive, _⟩
  · exact same
  · omega

theorem remaining_of_within (within : block.Within start count) :
    block.remaining start count = count := by
  have := within.extent
  simp only [remaining]
  omega

theorem LaidOut.sound (laid : block.LaidOut) : block.Sound := by
  rcases laid with ⟨noStorage, none⟩ | ⟨cells, storage, count, nonempty⟩
  · refine ⟨by omega, ?_⟩
    intro cells found
    rw [noStorage] at found
    cases found
  · refine ⟨by omega, ?_⟩
    intro found same
    rw [storage] at same
    cases same
    exact ⟨count, nonempty⟩

theorem LaidOut.nonempty_of_within (laid : block.LaidOut) (within : block.Within start count) :
    block.cells ≠ [] := by
  have := laid.nb_eq
  have := within.lower
  have := within.upper
  apply List.ne_nil_of_length_pos
  omega

end Block

namespace Station

/-- One read of the requested cells takes place, and its answer is stored at their offset. -/
def RelaysRead (st : Station) (req : Message) (t : Table) (start nb : ℕ) : Prop :=
  ∃ rc after, st.readFromDevice (some req) = (.ok rc, after) ∧
    after.sent = st.sent ++ [⟨st.slave.id, .read t start nb⟩] ∧
    after.slave.map = st.stored t start nb (st.answer (.read t start nb))

/-- One write of the requested cell takes place, with the value of the map. -/
def RelaysWriteOne (st : Station) (req : Message) (t : Table) (start : ℕ) : Prop :=
  ∃ rc after value, st.writeToDevice (some req) = (.ok rc, after) ∧
    (st.slave.map t).cells[(start - (st.slave.map t).start).toNat]? = some value ∧
    after.sent = st.sent ++ [⟨st.slave.id, .writeOne t start value⟩]

/-- One write of the requested cells takes place, with the values of the map. -/
def RelaysWrite (st : Station) (req : Message) (t : Table) (start nb : ℕ) : Prop :=
  ∃ rc after, st.writeToDevice (some req) = (.ok rc, after) ∧
    after.sent = st.sent ++ [⟨st.slave.id, .write t start
      (((st.slave.map t).cells.drop (start - (st.slave.map t).start).toNat).take nb)⟩]

/-- The relay address law, for the relay that the function of the request calls for. -/
def RelayLaw (st : Station) (req : Message) (func : Function) (t : Table) (start nb : ℕ) : Prop :=
  (func.reads = some t → st.RelaysRead req t start nb) ∧
    (func.writesOne = some t → st.RelaysWriteOne req t start) ∧
    (func.writes = some t → st.RelaysWrite req t start nb)

/-- How many cells a request addresses. The quantity counts only for the functions that have one. -/
def addressed (func : Function) (nb : ℕ) : ℕ :=
  if func.writesOne.isSome then 1 else nb

variable {st : Station} {req : Message} {t : Table} {start nb : ℕ}

theorem append_transfer_eq_iff {sent : List Sent} {id : ℤ} {first second : Transfer} :
    sent ++ [⟨id, first⟩] = sent ++ [⟨id, second⟩] ↔ first = second := by
  simp

theorem sent_transferred_eq_iff {st : Station} (open_ : st.isOpen = true) {made wanted : Transfer} :
    (st.transferred made).sent = st.sent ++ [⟨st.slave.id, wanted⟩] ↔ made = wanted := by
  rw [sent_transferred st made open_, append_transfer_eq_iff]

theorem sent_ne_append (sent : List Sent) (transfer : Sent) : sent ≠ sent ++ [transfer] := by
  simp

/-- The address of a request in the block arrives exactly when it is the first one. -/
theorem pduAddress_relayAddress_clamp_eq_iff {count : ℤ} (st : Station)
    (within : (st.slave.map t).Within start count) :
    st.slave.pduAddress (st.relayAddress ((st.slave.map t).clamp start)) = start ↔ start = 0 := by
  rcases Block.clamp_of_within within with same | ⟨positive, far⟩
  · rw [same]
    exact pduAddress_relayAddress_eq_iff st
  · -- The condition is true for the last element of a block that wraps around.
    simp only [relayAddress, Slave.pduAddress]
    split <;> split <;> omega

section Within

variable {func : Function} (open_ : st.isOpen = true) (requests : req.Requests func start nb)
  (laid : (st.slave.map t).LaidOut)

include open_ requests laid

theorem relaysRead_iff (read : func.reads = some t) (within : (st.slave.map t).Within start nb) :
    st.RelaysRead req t start nb ↔ start = 0 ∧ st.accepted = true := by
  rcases relayRead_spec t open_ laid.sound (laid.nonempty_of_within within) start nb with
    ⟨clamped, quantity, transfer, rfl, nb_eq, rfl, run⟩
  have law := pduAddress_relayAddress_clamp_eq_iff st within
  rw [RelaysRead, readFromDevice_eq open_ requests read, run]
  cases st.accepted with
  | false =>
      simp only [Bool.false_eq_true, if_false, and_false, iff_false]
      rintro ⟨_, after, ⟨⟩, transferred, _⟩
      exact sent_ne_append _ _ transferred
  | true =>
      constructor
      · rintro ⟨_, after, ⟨⟩, transferred, _⟩
        have same := (sent_transferred_eq_iff open_).mp transferred
        simp only [Transfer.read.injEq, true_and] at same
        exact ⟨law.mp same.1, rfl⟩
      · rintro ⟨rfl, _⟩
        rw [Int.natCast_zero] at law within nb_eq
        rw [Block.clamp_zero within, Block.remaining_of_within within] at nb_eq
        subst nb_eq
        rw [Int.natCast_zero, law.mpr rfl, Block.clamp_zero within]
        exact ⟨_, _, rfl, (sent_transferred_eq_iff open_).mpr rfl, rfl⟩

theorem relaysWriteOne_iff (write : func.writesOne = some t)
    (within : (st.slave.map t).Within start 1) :
    st.RelaysWriteOne req t start ↔ start = 0 ∧ st.accepted = true := by
  rcases relayWriteOne_spec t open_ laid.sound (laid.nonempty_of_within within) start with
    ⟨clamped, value, transfer, rfl, cell, rfl, run⟩
  have law := pduAddress_relayAddress_clamp_eq_iff st within
  rw [RelaysWriteOne, writeToDevice_eq_of_writesOne open_ requests write, run]
  cases st.accepted with
  | false =>
      simp only [Bool.false_eq_true, if_false, and_false, iff_false]
      rintro ⟨_, after, _, ⟨⟩, _, transferred⟩
      exact sent_ne_append _ _ transferred
  | true =>
      constructor
      · rintro ⟨_, after, _, ⟨⟩, _, transferred⟩
        have same := (sent_transferred_eq_iff open_).mp transferred
        simp only [Transfer.writeOne.injEq] at same
        exact ⟨law.mp same.2.1, rfl⟩
      · rintro ⟨rfl, _⟩
        rw [Int.natCast_zero] at law within cell
        rw [Block.clamp_zero within] at cell
        rw [Int.natCast_zero, law.mpr rfl]
        exact ⟨_, _, value, rfl, cell, (sent_transferred_eq_iff open_).mpr rfl⟩

theorem relaysWrite_iff (write : func.writes = some t)
    (within : (st.slave.map t).Within start nb) :
    st.RelaysWrite req t start nb ↔ start = 0 ∧ st.accepted = true := by
  rcases relayWrite_spec t open_ laid.sound (laid.nonempty_of_within within) start nb with
    ⟨clamped, quantity, transfer, rfl, nb_eq, rfl, run⟩
  have law := pduAddress_relayAddress_clamp_eq_iff st within
  rw [RelaysWrite, writeToDevice_eq_of_writes open_ requests write, run]
  cases st.accepted with
  | false =>
      simp only [Bool.false_eq_true, if_false, and_false, iff_false]
      rintro ⟨_, after, ⟨⟩, transferred⟩
      exact sent_ne_append _ _ transferred
  | true =>
      constructor
      · rintro ⟨_, after, ⟨⟩, transferred⟩
        have same := (sent_transferred_eq_iff open_).mp transferred
        simp only [Transfer.write.injEq] at same
        exact ⟨law.mp same.2.1, rfl⟩
      · rintro ⟨rfl, _⟩
        rw [Int.natCast_zero] at law within nb_eq
        rw [Block.clamp_zero within, Block.remaining_of_within within] at nb_eq
        subst nb_eq
        rw [Int.natCast_zero, law.mpr rfl, Block.clamp_zero within, Int.toNat_natCast]
        exact ⟨_, _, rfl, (sent_transferred_eq_iff open_).mpr rfl⟩

/-- A relay goes to the requested address exactly when this is the first one, on a link that accepts
the number of the slave. -/
theorem relayLaw_iff (relay : func.relayed = some t)
    (within : (st.slave.map t).Within start (addressed func nb)) :
    st.RelayLaw req func t start nb ↔ start = 0 ∧ st.accepted = true := by
  rcases func.relayed_cases relay with ⟨read, one, several⟩ | ⟨read, one, several⟩ |
    ⟨read, one, several⟩
  · simp only [addressed, one, Option.isSome_none, Bool.false_eq_true, if_false] at within
    rw [← relaysRead_iff open_ requests laid read within]
    simp only [RelayLaw, read, one, several, true_imp_iff, reduceCtorEq, false_imp_iff, and_true]
  · simp only [addressed, one, Option.isSome_some, if_true] at within
    rw [← relaysWriteOne_iff open_ requests laid one within]
    simp only [RelayLaw, read, one, several, true_imp_iff, reduceCtorEq, false_imp_iff, and_true,
      true_and]
  · simp only [addressed, one, Option.isSome_none, Bool.false_eq_true, if_false] at within
    rw [← relaysWrite_iff open_ requests laid several within]
    simp only [RelayLaw, read, one, several, true_imp_iff, reduceCtorEq, false_imp_iff, true_and]

end Within

theorem relayLaw_iff_of_first :
    ∃ req, Message.create (.net .rtu) (.adu [1, 3, 0, 0, 0, 1]) = .ok req ∧
      ((holding 0 [7]).RelayLaw req .readHoldingRegisters .holdingRegister 0 1 ↔
        0 = 0 ∧ (holding 0 [7]).accepted = true) := by
  refine ⟨_, rfl, ?_⟩
  apply relayLaw_iff
  · rfl
  · exact ⟨rfl⟩
  · exact Or.inr ⟨[7], rfl, rfl, by decide⟩
  · rfl
  · exact ⟨by decide, by decide, by decide⟩

/-- The register at address 1 is requested, and the register at address -1 is read. -/
theorem second_register_misdirected :
    ∃ req, Message.create (.net .rtu) (.adu [1, 3, 0, 1, 0, 1]) = .ok req ∧
      ((holding 1 [7]).readFromDevice (some req)).2.sent = [⟨1, .read .holdingRegister (-1) 1⟩] ∧
      ¬(holding 1 [7]).RelayLaw req .readHoldingRegisters .holdingRegister 1 1 := by
  refine ⟨_, rfl, rfl, ?_⟩
  rintro ⟨read, _⟩
  rcases read rfl with ⟨rc, after, run, transferred, _⟩
  have actual : after = ((holding 1 [7]).readFromDevice (some _)).2 :=
    (congrArg Prod.snd run).symm
  rw [actual] at transferred
  change [Sent.mk 1 (.read .holdingRegister (-1) 1)] =
    [Sent.mk 1 (.read .holdingRegister 1 1)] at transferred
  simp at transferred

end Station

end Modbuspp
