import Modbuspp.BufferedSlave.Relay
import Modbuspp.Library.Process

/-!
# The cached identification of a slave

A buffered slave keeps the identification it was last given by its device and serves it while the
device is closed. Before a query the vector is enlarged to the length of a PDU. `reportSlaveId` trims
it after a success but not after a failure; `readFromDevice` has the condition the other way round.
-/

namespace Modbuspp

namespace Station

/-- The end of `BufferedSlave::reportSlaveId`: what is copied to the destination. -/
def copyReport (st : Station) (maxDest : UInt16) : ℤ × List UInt8 :=
  let maxDest := min maxDest.toNat (UInt16.ofNat st.slave.idReport.length).toNat
  (maxDest, st.slave.idReport.take maxDest)

/-- `BufferedSlave::reportSlaveId`, with the bytes it copies. -/
def reportSlaveId (st : Station) (maxDest : UInt16) :
    Except Fault (ℤ × List UInt8) × Station :=
  if st.isOpen then
    let idReport := Storage.resize st.slave.idReport maxPduLength 0
    match st.slave.toSlave.reportSlaveId st.device idReport.length with
    | (.error fault, device) =>
        (.error fault, { slave := { st.slave with idReport }, device })
    | (.ok (rc, payload), device) =>
        let idReport :=
          match payload with
          | none => idReport
          | some payload => Storage.overwrite idReport 0 (payload.report.take idReport.length)
        if rc < 0 then (.ok (rc, []), { slave := { st.slave with idReport }, device })
        else
          let after : Station :=
            { slave := { st.slave with idReport := Storage.resize idReport rc.toNat 0 }, device }
          (.ok (after.copyReport maxDest), after)
  else (.ok (st.copyReport maxDest), st)

end Station

namespace Identification

/-- The two ways to ask for the identification. -/
inductive Call where
  | direct (maxDest : UInt16)
  /-- A request relayed by `readFromDevice`. -/
  | relayed (req : Message)

/-- A call, with the device as the slave finds it. -/
structure Input where
  device : Option Device
  call : Call

/-- The slave, next to the bytes of the last successful query. -/
structure State where
  slave : BufferedSlave
  last : List UInt8

/-- The slave with the device that a call meets. -/
def State.station (state : State) (input : Input) : Station :=
  { slave := state.slave, device := input.device }

/-- What a call returns, with the bytes it copies, and the station afterwards. -/
def outcome (st : Station) : Call → Except Fault (ℤ × List UInt8) × Station
  | .direct maxDest => st.reportSlaveId maxDest
  | .relayed req =>
      let (rc, st) := st.readFromDevice (some req)
      (rc.map (·, []), st)

/-- What a query brings: the value it returns and the answer, if it succeeds. There is no query while
the device is closed. -/
def query (st : Station) : Option (ℤ × Option Payload) :=
  if st.isOpen then (st.slave.toSlave.reportSlaveId st.device maxPduLength).1.toOption else none

/-- The answer of a successful query. -/
def answer (st : Station) : Option Payload := (query st).bind Prod.snd

/-- The state after a call. -/
def next (state : State) (input : Input) : State where
  slave := (outcome (state.station input) input.call).2.slave
  last :=
    match answer (state.station input) with
    | some payload => payload.report
    | none => state.last

/-- The cache keeps the last successful report, a failed query returns its code, and a call while the
device is closed copies the cached bytes. -/
structure Faithful (state : State) (input : Input) : Prop where
  cached : (next state input).slave.idReport = (next state input).last
  failed : ∀ rc, query (state.station input) = some (rc, none) →
    rc < 0 ∧ (outcome (state.station input) input.call).1 = .ok (rc, [])
  closed : ∀ maxDest, input.call = .direct maxDest → (state.station input).isOpen = false →
    (outcome (state.station input) input.call).1 =
      .ok (((min maxDest.toNat state.last.length : ℕ) : ℤ),
        state.last.take (min maxDest.toNat state.last.length))

/-- The calls that leave the cache right: those without a query, direct ones that succeed, and those
that need no trimming because the bytes fill a PDU. -/
def Harmless (state : State) (input : Input) : Prop :=
  (state.station input).isOpen = true →
    match input.call, answer (state.station input) with
    | .direct _, some _ => True
    | .direct _, none => state.slave.idReport.length = maxPduLength
    | .relayed _, some payload => payload.report.length = maxPduLength
    | .relayed _, none => False

/-- The device answers with at most a whole PDU, and a relayed request asks for the
identification. -/
structure Permitted (input : Input) : Prop where
  short : ∀ dev sent transfer payload, input.device = some dev →
    dev.ctx.answer sent transfer = some payload → payload.report.length ≤ maxPduLength
  asks : ∀ req, input.call = .relayed req →
    ∃ start nb, req.relayFields = .ok (start, nb, .reportServerId)

/-- A query of an open device fails with -1 or returns the number of bytes it brings. -/
theorem query_cases {st : Station} (opened : st.isOpen = true) :
    (∃ device, st.slave.toSlave.reportSlaveId st.device maxPduLength =
        (.ok (-1, none), device) ∧ query st = some (-1, none) ∧ answer st = none) ∨
      ∃ payload device, st.slave.toSlave.reportSlaveId st.device maxPduLength =
          (.ok (payload.report.length, some payload), device) ∧
        query st = some ((payload.report.length : ℤ), some payload) ∧ answer st = some payload ∧
        ∃ dev sent transfer, st.device = some dev ∧ dev.ctx.answer sent transfer = some payload := by
  rcases Slave.isOpen_iff.mp opened with ⟨dev, found, valid, _⟩
  rw [found] at valid
  have asked : query st =
      (st.slave.toSlave.reportSlaveId st.device maxPduLength).1.toOption := if_pos opened
  simp only [answer, asked, Slave.reportSlaveId, found]
  cases accepted : dev.ctx.accepts st.slave.id with
  | false =>
      left
      rw [Slave.exchange_refused _ valid accepted]
      exact ⟨_, rfl, rfl, rfl⟩
  | true =>
      rw [Slave.exchange_accepted _ valid accepted]
      cases answered : dev.ctx.answer dev.ctx.sent ⟨st.slave.id, .reportSlaveId maxPduLength⟩ with
      | none =>
          left
          exact ⟨_, rfl, rfl, rfl⟩
      | some payload =>
          right
          exact ⟨payload, _, rfl, rfl, rfl, dev, _, _, rfl, answered⟩

theorem query_of_closed {st : Station} (shut : st.isOpen = false) :
    query st = none ∧ answer st = none := by
  have unasked : query st = none := by simp only [query, shut, Bool.false_eq_true, if_false]
  exact ⟨unasked, by simp only [answer, unasked, Option.bind_none]⟩

/-- A vector that was enlarged for a report and is trimmed to it holds the report. -/
theorem trimmed {cells report : List UInt8} (room : report.length ≤ cells.length) :
    Storage.resize (Storage.overwrite cells 0 report) report.length 0 = report := by
  have enough : report.length - (Storage.overwrite cells 0 report).length = 0 := by
    rw [Storage.length_overwrite (by omega)]
    omega
  rw [Storage.resize, enough, List.replicate_zero, List.append_nil]
  simp only [Storage.overwrite, List.take_zero, List.nil_append, List.take_left]

theorem relayed_of_asks {st : Station} {req : Message} (opened : st.isOpen = true)
    (asks : ∃ start nb, req.relayFields = .ok (start, nb, .reportServerId)) :
    st.readFromDevice (some req) = st.relayReportServerId := by
  rcases asks with ⟨start, nb, fields⟩
  simp only [Station.readFromDevice, if_pos opened, fields]

/-- What a call returns after a query that failed. -/
def Call.failure : Call → Except Fault (ℤ × List UInt8)
  | .direct _ => .ok (-1, [])
  | .relayed _ => .error .lengthError

/-- The cache after a query that brought a report into the enlarged vector: only a direct call trims
it. -/
def Call.cache (enlarged report : List UInt8) : Call → List UInt8
  | .direct _ => report
  | .relayed _ => Storage.overwrite enlarged 0 report

theorem outcome_of_failure {st : Station} {call : Call} (opened : st.isOpen = true)
    (asks : ∀ req, call = .relayed req →
      ∃ start nb, req.relayFields = .ok (start, nb, .reportServerId))
    {device : Option Device} (asked : st.slave.toSlave.reportSlaveId st.device maxPduLength =
      (.ok (-1, none), device)) :
    (outcome st call).2.slave.idReport = Storage.resize st.slave.idReport maxPduLength 0 ∧
      (outcome st call).1 = call.failure := by
  have negative : (-1 : ℤ) < 0 := by omega
  cases call with
  | direct maxDest =>
      simp only [outcome, Station.reportSlaveId, if_pos opened, Storage.length_resize, asked,
        if_pos negative, Call.failure, and_self]
  | relayed req =>
      simp only [outcome, relayed_of_asks opened (asks req rfl), Station.relayReportServerId,
        Storage.length_resize, asked, if_pos negative, Except.map, Call.failure, and_self]

theorem outcome_of_success {st : Station} {call : Call} (opened : st.isOpen = true)
    (asks : ∀ req, call = .relayed req →
      ∃ start nb, req.relayFields = .ok (start, nb, .reportServerId))
    {payload : Payload} {device : Option Device} (short : payload.report.length ≤ maxPduLength)
    (asked : st.slave.toSlave.reportSlaveId st.device maxPduLength =
      (.ok (payload.report.length, some payload), device)) :
    (outcome st call).2.slave.idReport =
      call.cache (Storage.resize st.slave.idReport maxPduLength 0) payload.report := by
  have positive : ¬(payload.report.length : ℤ) < 0 := by omega
  have whole : payload.report.take maxPduLength = payload.report := List.take_of_length_le short
  have room : payload.report.length ≤
      (Storage.resize st.slave.idReport maxPduLength 0).length := by
    rw [Storage.length_resize]
    exact short
  cases call with
  | direct maxDest =>
      simp only [outcome, Station.reportSlaveId, if_pos opened, Storage.length_resize, asked,
        if_neg positive, whole, Int.toNat_natCast, trimmed room, Call.cache]
  | relayed req =>
      simp only [outcome, relayed_of_asks opened (asks req rfl), Station.relayReportServerId,
        Storage.length_resize, asked, if_neg positive, whole, Call.cache]

theorem outcome_of_closed {st : Station} {call : Call} (shut : st.isOpen = false) :
    (outcome st call).2 = st ∧
      ∀ maxDest, call = .direct maxDest → (outcome st call).1 = .ok (st.copyReport maxDest) := by
  have unopened : ¬st.isOpen = true := by simp only [shut, Bool.false_eq_true, not_false_iff]
  cases call with
  | direct maxDest =>
      simp only [outcome, Station.reportSlaveId, if_neg unopened, true_and]
      rintro other ⟨rfl⟩
      rfl
  | relayed req =>
      simp only [outcome, Station.readFromDevice, if_neg unopened, true_and]
      rintro maxDest ⟨⟩

theorem copyReport_eq {st : Station} (maxDest : UInt16)
    (short : st.slave.idReport.length ≤ maxPduLength) :
    st.copyReport maxDest = (((min maxDest.toNat st.slave.idReport.length : ℕ) : ℤ),
      st.slave.idReport.take (min maxDest.toNat st.slave.idReport.length)) := by
  simp only [maxPduLength] at short
  have count : (UInt16.ofNat st.slave.idReport.length).toNat = st.slave.idReport.length := by
    simp only [UInt16.toNat_ofNat']
    omega
  simp only [Station.copyReport, count]

/-- The cache holds the last successful report, which fits in a PDU. -/
structure Current (state : State) : Prop where
  cached : state.slave.idReport = state.last
  short : state.last.length ≤ maxPduLength

theorem next_of_closed {state : State} {input : Input}
    (shut : (state.station input).isOpen = false) : next state input = state := by
  simp only [next, (outcome_of_closed shut).1, (query_of_closed shut).2]
  rfl

theorem resize_eq_self_iff {cells : List UInt8} {length : ℕ} (short : cells.length ≤ length) :
    Storage.resize cells length 0 = cells ↔ cells.length = length := by
  constructor
  · intro same
    rw [← same, Storage.length_resize]
  · rintro rfl
    simp [Storage.resize]

theorem faithful_of_closed {state : State} {input : Input} (current : Current state)
    (shut : (state.station input).isOpen = false) : Faithful state input := by
  refine ⟨?_, ?_, ?_⟩
  · rw [next_of_closed shut]
    exact current.cached
  · intro rc asked
    rw [(query_of_closed shut).1] at asked
    cases asked
  · intro maxDest direct _
    have cached : (state.station input).slave.idReport = state.last := current.cached
    rw [(outcome_of_closed shut).2 maxDest direct, copyReport_eq maxDest (cached ▸ current.short),
      cached]

section Opened

variable {state : State} {input : Input} (permitted : Permitted input)
  (opened : (state.station input).isOpen = true) {device : Option Device}

include permitted opened

/-- After a query that failed, a relayed call throws, and a direct one leaves the cache enlarged. -/
theorem faithful_iff_of_failed (current : Current state)
    (asked : (state.station input).slave.toSlave.reportSlaveId (state.station input).device
      maxPduLength = (.ok (-1, none), device))
    (queried : query (state.station input) = some (-1, none))
    (none : answer (state.station input) = none) : Faithful state input ↔ Harmless state input := by
  rcases outcome_of_failure opened permitted.asks asked with ⟨cache, result⟩
  have kept : (next state input).last = state.last := by simp only [next, none]
  have padded : (next state input).slave.idReport =
      Storage.resize state.slave.idReport maxPduLength 0 := cache
  have short : state.slave.idReport.length ≤ maxPduLength := current.cached ▸ current.short
  cases call : input.call with
  | direct maxDest =>
      simp only [call, Call.failure] at result
      simp only [Harmless, opened, true_implies, call, none]
      rw [← resize_eq_self_iff short, ← padded]
      constructor
      · intro faithful
        rw [faithful.cached, kept, current.cached]
      · intro same
        refine ⟨?_, ?_, ?_⟩
        · rw [same, kept, current.cached]
        · intro rc failed
          rw [queried] at failed
          cases failed
          refine ⟨by omega, ?_⟩
          rw [call]
          exact result
        · intro _ _ shut
          rw [opened] at shut
          cases shut
  | relayed req =>
      simp only [call, Call.failure] at result
      simp only [Harmless, opened, true_implies, call, none, iff_false]
      intro faithful
      have returned := (faithful.failed (-1) queried).2
      rw [call, result] at returned
      cases returned

/-- After a query that was answered, a relayed call leaves the report untrimmed. -/
theorem faithful_iff_of_answered {payload : Payload}
    (asked : (state.station input).slave.toSlave.reportSlaveId (state.station input).device
      maxPduLength = (.ok (payload.report.length, some payload), device))
    (queried : query (state.station input) = some ((payload.report.length : ℤ), some payload))
    (found : answer (state.station input) = some payload)
    (bounded : payload.report.length ≤ maxPduLength) :
    Faithful state input ↔ Harmless state input := by
  have cache := outcome_of_success opened permitted.asks bounded asked
  have reported : (next state input).last = payload.report := by simp only [next, found]
  have faithful_of_cached :
      (next state input).slave.idReport = payload.report → Faithful state input := by
    intro cached
    refine ⟨cached.trans reported.symm, ?_, ?_⟩
    · intro rc failed
      rw [queried] at failed
      cases failed
    · intro _ _ shut
      rw [opened] at shut
      cases shut
  cases call : input.call with
  | direct maxDest =>
      simp only [call, Call.cache] at cache
      simp only [Harmless, opened, true_implies, call, found, iff_true]
      apply faithful_of_cached
      rw [next, call]
      exact cache
  | relayed req =>
      simp only [call, Call.cache] at cache
      have stored : (next state input).slave.idReport = Storage.overwrite
          (Storage.resize state.slave.idReport maxPduLength 0) 0 payload.report := by
        rw [next, call]
        exact cache
      simp only [Harmless, opened, true_implies, call, found]
      constructor
      · intro faithful
        rw [← reported, ← faithful.cached, stored, Storage.length_overwrite, Storage.length_resize]
        rw [Storage.length_resize, Nat.zero_add]
        exact bounded
      · intro whole
        apply faithful_of_cached
        rw [stored]
        apply Storage.overwrite_all
        rw [Storage.length_resize, whole]

end Opened

/-- A call keeps the cache right exactly when it is harmless. -/
theorem faithful_iff {state : State} {input : Input} (current : Current state)
    (permitted : Permitted input) : Faithful state input ↔ Harmless state input := by
  cases opened : (state.station input).isOpen with
  | false =>
      constructor
      · intro _ impossible
        rw [opened] at impossible
        cases impossible
      · intro _
        exact faithful_of_closed current opened
  | true =>
      rcases query_cases opened with ⟨device, asked, queried, none⟩ |
        ⟨payload, device, asked, queried, found, dev, sent, transfer, there, answered⟩
      · exact faithful_iff_of_failed permitted opened current asked queried none
      · have bounded := permitted.short dev sent transfer payload there answered
        exact faithful_iff_of_answered permitted opened asked queried found bounded

theorem next_current {state : State} {input : Input} (current : Current state)
    (permitted : Permitted input) (faithful : Faithful state input) :
    Current (next state input) := by
  refine ⟨faithful.cached, ?_⟩
  simp only [next]
  cases found : answer (state.station input) with
  | none => exact current.short
  | some payload =>
      have opened : (state.station input).isOpen = true := by
        cases shut : (state.station input).isOpen with
        | true => rfl
        | false =>
            rw [(query_of_closed shut).2] at found
            cases found
      rcases query_cases opened with ⟨_, _, _, none⟩ |
        ⟨other, _, _, _, same, dev, sent, transfer, there, answered⟩
      · rw [none] at found
        cases found
      · rw [same] at found
        cases found
        exact permitted.short dev sent transfer payload there answered

/-- In every run the cache is kept as it should be exactly when every call is harmless. -/
theorem faithful_along_iff {slave : BufferedSlave} {inputs : List Input}
    (unasked : slave.idReport = []) (permitted : ∀ input ∈ inputs, Permitted input) :
    Process.Along next Faithful { slave, last := [] } inputs ↔
      Process.Along next Harmless { slave, last := [] } inputs := by
  apply Process.along_iff_of_permitted Permitted Current
  · intro state input current allowed harmless
    exact next_current current allowed ((faithful_iff current allowed).mpr harmless)
  · intro state input current allowed
    exact faithful_iff current allowed
  · exact ⟨unasked, Nat.zero_le _⟩
  · exact permitted

/-- A query of an open device, then a call while it is closed. -/
theorem faithful_along_iff_of_direct :
    let slave := BufferedSlave.create 1 (some 0)
    let device := Device.create .rtu Context.answering
    Process.Along next Faithful { slave, last := [] }
      [{ device := some { device with isOpen := true }, call := .direct 16 },
        { device := some device, call := .direct 16 }] := by
  intro slave device
  have permitted : ∀ opened, Permitted
      { device := some { device with isOpen := opened }, call := .direct 16 } := by
    intro opened
    refine ⟨?_, ?_⟩
    · rintro dev sent transfer payload ⟨rfl⟩ ⟨rfl⟩
      exact Nat.zero_le _
    · rintro req ⟨⟩
  refine (faithful_along_iff rfl ?_).mpr ⟨fun _ => trivial, ?_, trivial⟩
  · intro input mem
    rcases List.mem_pair.mp mem with rfl | rfl
    · exact permitted true
    · exact permitted false
  · rintro ⟨⟩

/-- When the query of a relayed request fails, the vector is given the negative code as its length. -/
theorem failed_relay_throws :
    let slave := BufferedSlave.create 1 (some 0)
    let req : Message :=
      { net := .rtu, onWire := NetLayer.net_ne_noNet .rtu, aduSize := 4, isResponse := false
        backend := false, transactionId := 1, adu := [1, 17, 0xC0, 0x2C] ++ List.replicate 252 0 }
    let input : Input :=
      { device := some { Device.create .rtu Context.silent with isOpen := true }
        call := .relayed req }
    Permitted input ∧
      query (State.station { slave, last := [] } input) = some (-1, none) ∧
      (outcome (State.station { slave, last := [] } input) input.call).1 =
        .error .lengthError ∧
      ¬Process.Along next Faithful { slave, last := [] } [input] := by
  intro slave req input
  have thrown : (outcome (State.station { slave, last := [] } input) input.call).1 =
      .error .lengthError := rfl
  refine ⟨⟨?_, ?_⟩, rfl, thrown, ?_⟩
  · rintro dev sent transfer payload ⟨rfl⟩ ⟨⟩
  · rintro other ⟨rfl⟩
    exact ⟨_, _, rfl⟩
  · rintro ⟨faithful, _⟩
    have returned := (faithful.failed (-1) rfl).2
    rw [thrown] at returned
    cases returned

end Identification

end Modbuspp
