import Modbuspp.Data.Codec
import Modbuspp.BufferedSlave.Identification

/-!
# Reports of the identification

`SlaveReport<T, e>` keeps the answer to the MODBUS 17 function: the identifier, of type `T`, the status
of the run indicator and additional data. A reply may be shorter than the identifier. The length of the
additional data is a 16-bit difference, which wraps around when the reply ends before them.
-/

namespace Modbuspp

variable {k : ℕ}

/-- `SlaveReport<T, e>`, for a type `T` of `k` bytes. Of the array `m_data` the state keeps the bytes
that were written; they are at its beginning. -/
structure SlaveReport (k : ℕ) where
  endian : Endian
  size : UInt16
  stored : List UInt8
  fits : stored.length ≤ maxPduLength

namespace SlaveReport

/-- The default constructor, which leaves the array as it is. -/
def new (endian : Endian) : SlaveReport k :=
  { endian, size := 0, stored := [], fits := Nat.zero_le _ }

theorem length_overwrite_le {stored reply : List UInt8} (fits : stored.length ≤ maxPduLength)
    (room : reply.length ≤ maxPduLength) :
    (Storage.overwrite stored 0 reply).length ≤ maxPduLength := by
  simp only [Storage.overwrite, List.length_append, List.length_take, List.length_drop]
  omega

/-- The copy of a reply to the array, which must not leave it. -/
def copy (report : SlaveReport k) (reply : List UInt8) : Except Fault (SlaveReport k) :=
  if room : reply.length ≤ maxPduLength then
    .ok { report with
      stored := Storage.overwrite report.stored 0 reply
      fits := length_overwrite_le report.fits room }
  else .error .outOfBounds

/-- A reply put into a report, in place of what it held before. -/
def store (report : SlaveReport k) (reply : List UInt8) : Except Fault (SlaveReport k) := do
  let report ← report.copy reply
  return { report with size := UInt16.ofNat reply.length }

/-- The constructor from a reply. -/
def create (endian : Endian) (reply : List UInt8) : Except Fault (SlaveReport k) :=
  (new endian).store reply

/-- `Slave::reportSlaveId` for a report, given what the function it calls returns and copies. -/
def receive (dest : SlaveReport k) (r : ℤ) (copied : List UInt8) :
    Except Fault (ℤ × SlaveReport k) := do
  let dest ← dest.copy copied
  return (r, if 0 ≤ r then { dest with size := UInt16.ofNat r.toNat } else dest)

/-- The running status, the byte that follows the id. -/
def status (report : SlaveReport k) : Except Fault Bool :=
  if k < report.size.toNat then do
    let byte ← checked (Storage.read report.stored k)
    return byte == 0xFF
  else return false

/-- `SlaveReport::swap`. -/
def swap (host : Host) (endian : Endian) (v : Vector UInt8 k) : Vector UInt8 k := host.swap endian v

/-- The id at the start of the report. -/
def id (host : Host) (report : SlaveReport k) : Except Fault (Vector UInt8 k) :=
  if k ≤ report.size.toNat then
    if inside : k ≤ report.stored.length then
      let v : Vector UInt8 k := Vector.ofFn fun i => report.stored[i.val]
      .ok (ntoh host.order (swap host report.endian v))
    else .error .outOfBounds
  else .ok (Vector.replicate k 0)

/-- The length that `data` computes: the difference of numbers of 64 bits, cut to 16 bits. -/
def dataLength (report : SlaveReport k) : UInt16 :=
  (report.size.toUInt64 - (UInt64.ofNat k + 1)).toUInt16

/-- The bytes that follow the status. -/
def data (report : SlaveReport k) : Except Fault (List UInt8) :=
  let len := report.dataLength
  if 0 < len then checked (Storage.slice report.stored (k + 1) len.toNat) else .ok []

/-- The report gives the parts of the reply: the identifier is the value that is sent as the first
bytes, or zero when they are missing; the next byte is the status; the additional data are the rest. -/
structure Parses (host : Host) (report : SlaveReport k) (reply : List UInt8) : Prop where
  id_of_long : k ≤ reply.length → ∃ v, report.id host = .ok v ∧
    (report.endian.order (host.order.significantFirst v)).toList = reply.take k
  id_of_short : reply.length < k → report.id host = .ok (Vector.replicate k 0)
  status : report.status = .ok (decide (reply[k]? = some 0xFF))
  data : report.data = .ok (reply.drop (k + 1))

/-- The report on an array that ends with the reply, where a byte at its end or behind cannot be
read. -/
def cut (report : SlaveReport k) : SlaveReport k :=
  { report with
    stored := report.stored.take report.size.toNat
    fits := by
      have fits := report.fits
      rw [List.length_take]
      omega }

/-- The report gives the parts of the reply, and does so without reading behind its end. -/
def Partitions (host : Host) (report : SlaveReport k) (reply : List UInt8) : Prop :=
  report.Parses host reply ∧ report.cut.Parses host reply

end SlaveReport

/-- `Slave::reportSlaveId` for a report. -/
def Slave.reportSlaveIdTo (slave : Slave) (device : Option Device) (dest : SlaveReport k) :
    Except Fault (ℤ × SlaveReport k) × Option Device :=
  match slave.reportSlaveId device maxPduLength with
  | (.error fault, device) => (.error fault, device)
  | (.ok (r, none), device) => (dest.receive r [], device)
  | (.ok (r, some payload), device) => (dest.receive r (payload.report.take maxPduLength), device)

/-- The same for a buffered slave, whose `reportSlaveId` it calls. -/
def Station.reportSlaveIdTo (st : Station) (dest : SlaveReport k) :
    Except Fault (ℤ × SlaveReport k) × Station :=
  match st.reportSlaveId (UInt16.ofNat maxPduLength) with
  | (.error fault, st) => (.error fault, st)
  | (.ok (r, copied), st) => (dest.receive r copied, st)

namespace SlaveReport

/-- The array begins with the reply, and the size is its length. -/
structure Holds (report : SlaveReport k) (reply : List UInt8) : Prop where
  size : report.size.toNat = reply.length
  bytes : report.stored.take reply.length = reply

variable {report : SlaveReport k} {reply : List UInt8}

theorem Holds.length_le (holds : report.Holds reply) : reply.length ≤ report.stored.length := by
  have lengths := congrArg List.length holds.bytes
  rw [List.length_take] at lengths
  omega

theorem Holds.getElem? (holds : report.Holds reply) {i : ℕ} (inside : i < reply.length) :
    report.stored[i]? = reply[i]? := by
  rw [← List.getElem?_take_of_lt inside, holds.bytes]

theorem Holds.cut (holds : report.Holds reply) : report.cut.Holds reply := by
  have taken : report.stored.take report.size.toNat = reply := by rw [holds.size, holds.bytes]
  have cells : report.cut.stored = reply := taken
  refine ⟨holds.size, ?_⟩
  rw [cells, List.take_length]

/-- The identifier is the value that is sent as the first bytes exactly when their swap comes out as it
is written. -/
theorem Holds.id_iff (holds : report.Holds reply) (host : Host) (long : k ≤ reply.length) :
    ∃ bytes : Vector UInt8 k, bytes.toList = reply.take k ∧
      ((∃ v, report.id host = .ok v ∧
          (report.endian.order (host.order.significantFirst v)).toList = reply.take k) ↔
        host.swap report.endian bytes = report.endian.order bytes) := by
  have inside : k ≤ report.stored.length := Nat.le_trans long holds.length_le
  have enough : k ≤ report.size.toNat := by rw [holds.size]; exact long
  let bytes : Vector UInt8 k := Vector.ofFn fun i => report.stored[i.val]
  have first : bytes.toList = reply.take k := by
    apply List.ext_getElem?
    intro i
    by_cases within : i < k
    · rw [List.getElem?_take_of_lt within, ← holds.getElem? (by omega)]
      simp only [bytes, Vector.getElem?_toList, Vector.getElem?_ofFn, dif_pos within]
      rw [List.getElem?_eq_getElem (by omega)]
    · rw [List.getElem?_eq_none (by rw [Vector.length_toList]; omega),
        List.getElem?_eq_none (by rw [List.length_take]; omega)]
  have found : report.id host = .ok (ntoh host.order (swap host report.endian bytes)) := by
    rw [SlaveReport.id, if_pos enough, dif_pos inside]
  refine ⟨bytes, first, ?_⟩
  rw [found, ← first, ntoh_eq, swap]
  constructor
  · rintro ⟨v, same, sent⟩
    rw [Except.ok.injEq] at same
    rw [← same, ByteOrder.significantFirst_significantFirst, Vector.toList_inj] at sent
    rw [← sent, Endian.order_order, sent]
  · intro same
    refine ⟨_, rfl, ?_⟩
    rw [ByteOrder.significantFirst_significantFirst, same, Endian.order_order]

theorem Holds.id_of_short (holds : report.Holds reply) (host : Host) (short : reply.length < k) :
    report.id host = .ok (Vector.replicate k 0) := by
  have missing : ¬ k ≤ report.size.toNat := by rw [holds.size]; omega
  rw [SlaveReport.id, if_neg missing]

theorem Holds.status (holds : report.Holds reply) :
    report.status = .ok (decide (reply[k]? = some 0xFF)) := by
  rw [SlaveReport.status, holds.size]
  split
  · next present =>
    have cell : Storage.read report.stored k = some reply[k] := by
      rw [Storage.read_eq_some_iff, Int.toNat_natCast, holds.getElem? present]
      exact ⟨by omega, List.getElem?_eq_getElem present⟩
    rw [cell, List.getElem?_eq_getElem present]
    simp only [checked_some, ok_bind, pure_eq_ok, Option.some.injEq]
    rfl
  · next missing =>
    rw [List.getElem?_eq_none (by omega)]
    rfl

/-- The length is the difference modulo 2^16. -/
theorem toNat_dataLength (report : SlaveReport k) :
    (report.dataLength.toNat : ℤ) = ((report.size.toNat : ℤ) - (k + 1)) % 65536 := by
  have bound := report.size.toNat_lt
  simp only [dataLength, UInt64.toNat_toUInt16, UInt64.toNat_sub, UInt64.toNat_add,
    UInt64.toNat_ofNat', UInt16.toNat_toUInt64, UInt64.toNat_one]
  omega

/-- The additional data are right when the reply reaches them, or when the wrapped length is zero. -/
theorem Holds.data_iff (holds : report.Holds reply) :
    report.data = .ok (reply.drop (k + 1)) ↔
      k < reply.length ∨ 65536 ∣ k + 1 - reply.length := by
  have fits := report.fits
  have inside := holds.length_le
  have length := report.toNat_dataLength
  rw [holds.size] at length
  have room : maxPduLength = 253 := rfl
  rw [SlaveReport.data]
  by_cases reaches : k < reply.length
  · have len : report.dataLength.toNat = reply.length - (k + 1) := by omega
    simp only [reaches, true_or, iff_true]
    split
    · have rest : (report.stored.drop (k + 1)).take (reply.length - (k + 1)) = reply.drop (k + 1) := by
        rw [← List.drop_take, holds.bytes]
      rw [Storage.slice_eq_some _ _ _ (by omega) (by omega), checked_some, len]
      exact congrArg Except.ok rest
    · next none =>
      rw [UInt16.lt_iff_toNat_lt, UInt16.toNat_zero] at none
      rw [List.drop_eq_nil_of_le (by omega)]
  · rw [List.drop_eq_nil_of_le (by omega)]
    simp only [reaches, false_or]
    split
    · next some =>
      rw [UInt16.lt_iff_toNat_lt, UInt16.toNat_zero] at some
      have outside : Storage.slice report.stored (k + 1) report.dataLength.toNat = none := by
        rw [Storage.slice, if_neg (by omega), if_neg (by omega)]
      rw [outside, checked_none]
      simp only [reduceCtorEq, false_iff]
      omega
    · next none =>
      rw [UInt16.lt_iff_toNat_lt, UInt16.toNat_zero] at none
      simp only [true_iff]
      omega

theorem Holds.data_of_parses (holds : report.Holds reply) {host : Host} (parses : report.Parses host reply) :
    k < reply.length ∨ 65536 ∣ k + 1 - reply.length :=
  holds.data_iff.mp parses.data

theorem Holds.parses (holds : report.Holds reply) (host : Host)
    (rest : k < reply.length ∨ 65536 ∣ k + 1 - reply.length)
    (defined : k ≤ reply.length → report.endian.Defined k) : report.Parses host reply := by
  refine ⟨?_, holds.id_of_short host, holds.status, holds.data_iff.mpr rest⟩
  intro long
  rcases holds.id_iff host long with ⟨bytes, _, law⟩
  exact law.mpr (Host.performs_of_defined (defined long) host bytes)

/-- A machine that spoils what it may gives the identifier only when no swap is undefined. -/
theorem Holds.defined_of_parses (holds : report.Holds reply) {order : ByteOrder}
    (parses : report.Parses (Host.spoiling order) reply) (long : k ≤ reply.length) :
    report.endian.Defined k := by
  rcases holds.id_iff (Host.spoiling order) long with ⟨bytes, _, law⟩
  exact Host.spoiling_swap_eq_iff.mp (law.mp (parses.id_of_long long))

theorem holds_store (prior : SlaveReport k) (short : reply.length ≤ maxPduLength) :
    ∃ report, prior.store reply = .ok report ∧ report.endian = prior.endian ∧ report.Holds reply := by
  have room : maxPduLength = 253 := rfl
  rw [store, copy, dif_pos short]
  refine ⟨_, rfl, rfl, ?_, ?_⟩
  · rw [UInt16.toNat_ofNat']
    omega
  · simp only [Storage.overwrite, List.take_zero, List.nil_append, List.take_left]

theorem copy_nil (report : SlaveReport k) : report.copy [] = .ok report := by
  have room : ([] : List UInt8).length ≤ maxPduLength := Nat.zero_le _
  rw [copy, dif_pos room]
  rfl

/-- A reply that is received is stored as the constructor stores it. -/
theorem receive_reply (dest : SlaveReport k) (reply : List UInt8) :
    dest.receive reply.length reply = (dest.store reply).map ((reply.length : ℤ), ·) := by
  rw [receive, store]
  cases dest.copy reply with
  | error fault => rfl
  | ok report =>
      simp only [ok_bind, pure_eq_ok, Except.map, if_pos (Int.natCast_nonneg _), Int.toNat_natCast]

theorem receive_failure (dest : SlaveReport k) {r : ℤ} (failed : r < 0) :
    dest.receive r [] = .ok (r, dest) := by
  rw [receive, copy_nil, ok_bind, if_neg (by omega), pure_eq_ok]

/-- What a query for a report ends with: the fault of the function it calls, its failure, which leaves
the report as it is, or its reply, which is stored. -/
inductive Received (dest : SlaveReport k) : Except Fault (ℤ × SlaveReport k) → Prop where
  | thrown (fault : Fault) : Received dest (.error fault)
  | failed (r : ℤ) (negative : r < 0) : Received dest (.ok (r, dest))
  | reply (reply : List UInt8) (report : SlaveReport k) (short : reply.length ≤ maxPduLength)
      (stored : dest.store reply = .ok report) : Received dest (.ok (reply.length, report))

theorem received_reply (dest : SlaveReport k) (short : reply.length ≤ maxPduLength) :
    Received dest (dest.receive reply.length reply) := by
  rcases holds_store dest short with ⟨report, stored, _⟩
  rw [receive_reply, stored]
  exact .reply reply report short stored

end SlaveReport

open SlaveReport

/-- A query that a slave sends to its device ends so, when the device answers with at most a PDU. -/
theorem Slave.received (slave : Slave) {device : Option Device} (dest : SlaveReport k)
    (short : ∀ dev sent transfer payload, device = some dev →
      dev.ctx.answer sent transfer = some payload → payload.report.length ≤ maxPduLength) :
    Received dest (slave.reportSlaveIdTo device dest).1 := by
  have failure : Received dest (dest.receive (-1) []) := by
    rw [receive_failure dest (by omega)]
    exact .failed (-1) (by omega)
  rw [Slave.reportSlaveIdTo, Slave.reportSlaveId]
  cases found : device with
  | none => exact .thrown _
  | some dev =>
      cases valid : slave.isValid (some dev) with
      | false =>
          simp only [Slave.exchange, valid, Bool.false_eq_true, if_false]
          exact .thrown _
      | true =>
          cases accepted : dev.ctx.accepts slave.id with
          | false =>
              rw [Slave.exchange_refused _ valid accepted]
              exact failure
          | true =>
              rw [Slave.exchange_accepted _ valid accepted]
              cases answered : dev.ctx.answer dev.ctx.sent ⟨slave.id, .reportSlaveId maxPduLength⟩ with
              | none => exact failure
              | some payload =>
                  have room := short dev _ _ payload found answered
                  simp only [Transfer.result, List.take_of_length_le room]
                  exact received_reply dest room

/-- What a buffered slave copies is what its return value counts. -/
theorem Station.received_copyReport (st : Station) (dest : SlaveReport k) :
    Received dest (dest.receive (st.copyReport (UInt16.ofNat maxPduLength)).1
      (st.copyReport (UInt16.ofNat maxPduLength)).2) := by
  have room : (UInt16.ofNat maxPduLength).toNat = maxPduLength := rfl
  have cached : (UInt16.ofNat st.slave.idReport.length).toNat ≤ st.slave.idReport.length := by
    rw [UInt16.toNat_ofNat']
    omega
  have length : (st.copyReport (UInt16.ofNat maxPduLength)).1 =
      (st.copyReport (UInt16.ofNat maxPduLength)).2.length := by
    simp only [Station.copyReport, List.length_take]
    omega
  rw [length]
  refine received_reply dest ?_
  simp only [Station.copyReport, List.length_take]
  omega

theorem Station.received (st : Station) (dest : SlaveReport k) :
    Received dest (st.reportSlaveIdTo dest).1 := by
  rw [Station.reportSlaveIdTo, Station.reportSlaveId]
  cases opened : st.isOpen with
  | false =>
      simp only [Bool.false_eq_true, if_false]
      exact st.received_copyReport dest
  | true =>
      simp only [if_true, Storage.length_resize]
      rcases st.slave.toSlave.reportSlaveId st.device maxPduLength with ⟨outcome, device⟩
      rcases outcome with fault | ⟨rc, payload⟩
      · exact .thrown fault
      · by_cases negative : rc < 0
        · simp only [if_pos negative, receive_failure dest negative]
          exact .failed rc negative
        · simp only [if_neg negative]
          exact Station.received_copyReport _ dest

namespace SlaveReport

/-- On every machine of a byte order the accessors partition a stored reply, exactly when it goes past the
identifier, or lacks a multiple of 2^16 bytes of doing so, and the swaps of an identifier that is there are
defined. -/
theorem partitions_iff (order : ByteOrder) (prior : SlaveReport k) {reply : List UInt8}
    (short : reply.length ≤ maxPduLength) :
    ∃ report, prior.store reply = .ok report ∧ report.endian = prior.endian ∧
      ((∀ host : Host, host.order = order → report.Partitions host reply) ↔
        (k < reply.length ∨ 65536 ∣ k + 1 - reply.length) ∧
          (k ≤ reply.length → prior.endian.Defined k)) := by
  rcases holds_store prior short with ⟨report, stored, endian, holds⟩
  refine ⟨report, stored, endian, ?_⟩
  rw [← endian]
  constructor
  · intro partitions
    have parses := (partitions (Host.spoiling order) rfl).1
    exact ⟨holds.data_of_parses parses, holds.defined_of_parses parses⟩
  · rintro ⟨rest, defined⟩ host _
    exact ⟨holds.parses host rest defined, holds.cut.parses host rest defined⟩

theorem partitions_of_text :
    ∃ report, (new .littleBig : SlaveReport 2).store [1, 2, 0xFF, 65] = .ok report ∧
      ∀ host : Host, host.order = .littleEndian → report.Partitions host [1, 2, 0xFF, 65] := by
  have short : ([1, 2, 0xFF, 65] : List UInt8).length ≤ maxPduLength := by decide
  rcases partitions_iff .littleEndian (new .littleBig : SlaveReport 2) short with
    ⟨report, stored, _, law⟩
  exact ⟨report, stored, law.mpr ⟨Or.inl (by decide), fun _ => by decide⟩⟩

/-- A reply that consists of the identifier alone: the additional data are read from outside of the
array. -/
theorem short_report_read_outside : ¬ ∀ (k : ℕ) (host : Host) (prior : SlaveReport k)
    (reply : List UInt8), 1 ≤ k → reply.length ≤ maxPduLength →
      ∃ report, prior.store reply = .ok report ∧ report.endian = prior.endian ∧
        report.Partitions host reply := by
  intro partitions
  rcases partitions 2 (.asWritten .littleEndian) (new .bigBig) [0x12, 0x34] (by decide) (by decide) with
    ⟨report, stored, _, parses, _⟩
  have outside : ((new .bigBig : SlaveReport 2).store [0x12, 0x34]).bind SlaveReport.data =
      .error .outOfBounds := rfl
  rw [stored] at outside
  exact nomatch outside.symm.trans parses.data

end SlaveReport

end Modbuspp
