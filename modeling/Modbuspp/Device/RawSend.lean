import Modbuspp.Device.Basic

/-!
# Raw sends

`Device::sendRawMessage` hands a whole ADU to the backend, again and again when the link is to be
recovered. The outcomes of the backend calls are arbitrary; a send consumes as many of them as its
loop makes calls. The length reported at the end is compared with `size`, the length of the PDU,
although the backend counts the bytes of the ADU.
-/

namespace Modbuspp

/-- A call of the backend: what it returns and the `errno` it leaves. -/
structure Attempt where
  rc : ℤ
  errno : Errno
deriving DecidableEq, Repr

/-- What a raw send does to the link. -/
inductive LinkAction where
  | prepare
  | transmit (frame : List UInt8)
  | close
  | sleep
  | open
  | flush
deriving DecidableEq, Repr

/-- What a call of `sendRawMessage` leaves behind. -/
structure RawSend where
  rc : ℤ
  errno : Errno
  msg : Message
  backend : NetLayer
  actions : List LinkAction
  /-- The outcomes that were not consumed. -/
  unused : List Attempt

namespace Device

/-- What follows a failed call when the link is to be recovered. -/
def recoverLink : Errno → List LinkAction
  | .badFile => [.close, .sleep, .open]
  | .connectionReset => [.close, .sleep, .open]
  | .brokenPipe => [.close, .sleep, .open]
  | _ => [.sleep, .flush]

/-- The loop of a raw send: the last call, the actions and the outcomes left. There is no result when
the outcomes are used up before the loop ends. -/
def sendLoop (recovering : Bool) (frame : List UInt8) :
    List Attempt → Option (Attempt × List LinkAction × List Attempt)
  | [] => none
  | attempt :: attempts =>
      if recovering ∧ attempt.rc = -1 then do
        let (last, actions, unused) ← sendLoop recovering frame attempts
        some (last, .transmit frame :: (recoverLink attempt.errno ++ actions), unused)
      else some (attempt, [.transmit frame], attempts)

/-- The loop is repeated for the requests of a device that recovers its link. -/
def recovering (dev : Device) (msg : Message) : Bool := dev.recoveryLink && !msg.isResponse

/-- A message is prepared, if the caller wants it, and sent. On a device that recovers its link, a failed
transmission of a request is repeated. -/
def sendRawMessage (dev : Device) (msg : Message) (prepareBefore : Bool)
    (attempts : List Attempt) : Except Fault (Option RawSend) :=
  match dev.backend with
  | none => .error (.runtimeError "Backend not set !")
  | some backend => do
      let ready :=
        if prepareBefore then backend.prepareToSend msg else .ok (true, msg, backend)
      let (done, msg, backend) ← ready
      if done then do
        let prepared := if prepareBefore then [LinkAction.prepare] else []
        let frame ← checked (Storage.slice msg.adu 0 msg.aduSize)
        match sendLoop (dev.recovering msg) frame attempts with
        | none => pure none
        | some (last, actions, unused) =>
            let result := { rc := last.rc, errno := last.errno, msg, backend,
                            actions := prepared ++ actions, unused }
            if last.rc > 0 ∧ last.rc ≠ msg.size then
              pure (some { result with rc := -1, errno := .badData })
            else pure (some result)
      else
        pure (some { rc := -1, errno := .invalid, msg, backend, actions := [], unused := attempts })

end Device

/-- The frames handed to the backend, in order. -/
def transmissions (actions : List LinkAction) : List (List UInt8) :=
  actions.filterMap fun action =>
    match action with
    | .transmit frame => some frame
    | _ => none

/-- The outcomes of the backend calls end the loop and are all consumed. -/
def EndsLoop (recovering : Bool) (attempts : List Attempt) : Prop :=
  ∃ earlier last, attempts = earlier ++ [last] ∧
    (∀ attempt ∈ earlier, recovering = true ∧ attempt.rc = -1) ∧
      ¬(recovering = true ∧ last.rc = -1)

/-- The bytes that the preparation appends to the ADU. -/
def Message.appended (msg : Message) (prepareBefore : Bool) : ℕ :=
  if prepareBefore then msg.net.trailerLength else 0

/-- The number of bytes sent is neither that of the PDU nor that of the whole ADU, or the call
failed. -/
def Message.Distinguished (msg : Message) (prepareBefore : Bool) (rc : ℤ) : Prop :=
  rc = -1 ∨ rc ≠ msg.size + msg.appended prepareBefore ∧
    rc ≠ msg.aduSize + msg.appended prepareBefore

/-- The law of sending a raw message. -/
structure RawSend.Lawful (dev : Device) (msg : Message) (prepareBefore : Bool)
    (attempts : List Attempt) (result : RawSend) : Prop where
  full : ∀ last ∈ attempts.getLast?,
    (result.rc = msg.aduSize + msg.appended prepareBefore ↔
      last.rc = msg.aduSize + msg.appended prepareBefore)
  part : ∀ last ∈ attempts.getLast?, 0 < last.rc →
    last.rc < msg.aduSize + msg.appended prepareBefore →
      result.rc = -1 ∧ result.errno = .badData
  failed : ∀ last ∈ attempts.getLast?, last.rc = -1 → result.rc = -1
  calls : (transmissions result.actions).length = attempts.length
  again : 2 ≤ attempts.length → dev.recoveryLink = true ∧ msg.isResponse = false ∧
    ∀ attempt ∈ attempts.dropLast, attempt.rc = -1
  prepared : result.actions.count .prepare = if prepareBefore then 1 else 0
  frames : ∀ frame ∈ transmissions result.actions,
    frame = result.msg.adu.take (msg.aduSize + msg.appended prepareBefore)

/-- The send returns and obeys the law. -/
def Device.RawSendLaw (dev : Device) (msg : Message) (prepareBefore : Bool)
    (attempts : List Attempt) : Prop :=
  ∃ result, dev.sendRawMessage msg prepareBefore attempts = .ok (some result) ∧
    result.unused = [] ∧ result.Lawful dev msg prepareBefore attempts

namespace Device

theorem transmissions_append (first second : List LinkAction) :
    transmissions (first ++ second) = transmissions first ++ transmissions second := by
  simp only [transmissions, List.filterMap_append]

theorem recoverLink_silent (errno : Errno) :
    transmissions (recoverLink errno) = [] ∧ (recoverLink errno).count .prepare = 0 := by
  cases errno <;> exact ⟨rfl, rfl⟩

/-- A loop that ends makes one call for each outcome, always with the same frame. -/
theorem sendLoop_of_ends {recovering : Bool} {attempts : List Attempt} (frame : List UInt8)
    (ends : EndsLoop recovering attempts) :
    ∃ last actions, attempts.getLast? = some last ∧
      sendLoop recovering frame attempts = some (last, actions, []) ∧
      transmissions actions = List.replicate attempts.length frame ∧
      actions.count .prepare = 0 := by
  rcases ends with ⟨earlier, last, rfl, failures, final⟩
  refine ⟨last, ?_⟩
  simp only [List.getLast?_append, List.getLast?_singleton, Option.some_or, true_and]
  induction earlier with
  | nil =>
      refine ⟨[.transmit frame], ?_, rfl, by simp⟩
      simp only [List.nil_append, sendLoop, if_neg final]
  | cons attempt earlier ih =>
      rcases ih (fun later laterMem => failures later (List.mem_cons_of_mem attempt laterMem)) with
        ⟨actions, looped, sent, unprepared⟩
      have failure := failures attempt (by simp)
      rcases recoverLink_silent attempt.errno with ⟨silent, noPreparation⟩
      refine ⟨.transmit frame :: (recoverLink attempt.errno ++ actions), ?_, ?_, ?_⟩
      · simp only [List.cons_append, sendLoop, if_pos failure, looped]
        rfl
      · change frame :: transmissions (recoverLink attempt.errno ++ actions) = _
        rw [transmissions_append, silent, sent, List.nil_append, List.cons_append,
          List.length_cons, List.replicate_succ]
      · rw [List.count_cons_of_ne (by simp), List.count_append, noPreparation, unprepared]

theorem again_of_ends {dev : Device} {msg : Message} {attempts : List Attempt}
    (several : 2 ≤ attempts.length) (ends : EndsLoop (dev.recovering msg) attempts) :
    dev.recoveryLink = true ∧ msg.isResponse = false ∧
      ∀ attempt ∈ attempts.dropLast, attempt.rc = -1 := by
  rcases ends with ⟨earlier, last, rfl, failures, _⟩
  rw [List.dropLast_concat]
  cases earlier with
  | nil => simp at several
  | cons attempt earlier =>
      have recovers := (failures attempt (by simp)).1
      simp only [recovering, Bool.and_eq_true, Bool.not_eq_true'] at recovers
      exact ⟨recovers.1, recovers.2, fun failed mem => (failures failed mem).2⟩

/-- The message that is sent: the given one, or the one prepared from it. -/
theorem ready_of_room {backend : NetLayer} {msg : Message} {prepareBefore : Bool}
    (sameNet : prepareBefore = true → backend.net = msg.net) (nonempty : 1 ≤ msg.size)
    (room : msg.aduSize + msg.appended prepareBefore ≤ msg.adu.length) :
    ∃ framed next, (if prepareBefore = true then backend.prepareToSend msg
        else .ok (true, msg, backend)) = .ok (true, framed, next) ∧
      framed.isResponse = msg.isResponse ∧
      framed.aduSize = msg.aduSize + msg.appended prepareBefore ∧
      framed.size = msg.size + msg.appended prepareBefore ∧
      framed.adu.length = msg.adu.length := by
  cases prepareBefore with
  | false => exact ⟨msg, backend, rfl, rfl, rfl, rfl, rfl⟩
  | true =>
      rcases Message.layer_prepareToSend_ok (sameNet rfl) nonempty room with
        ⟨framed, next, done, _, from_msg⟩
      exact ⟨framed, next, done, from_msg.isResponse_eq, from_msg.aduSize_eq,
        from_msg.size_eq nonempty, from_msg.length_eq⟩

/-- What a send whose loop ends returns, in terms of the last call of the backend. -/
theorem sendRawMessage_ok {dev : Device} {msg : Message} {prepareBefore : Bool}
    {attempts : List Attempt} (valid : dev.isValid = true)
    (sameNet : prepareBefore = true → dev.net = msg.net) (nonempty : 1 ≤ msg.size)
    (room : msg.aduSize + msg.appended prepareBefore ≤ msg.adu.length)
    (ends : EndsLoop (dev.recovering msg) attempts) :
    ∃ result last, dev.sendRawMessage msg prepareBefore attempts = .ok (some result) ∧
      attempts.getLast? = some last ∧ result.unused = [] ∧
      (if last.rc > 0 ∧ last.rc ≠ msg.size + msg.appended prepareBefore then
        result.rc = -1 ∧ result.errno = .badData
      else result.rc = last.rc ∧ result.errno = last.errno) ∧
      transmissions result.actions = List.replicate attempts.length
        (result.msg.adu.take (msg.aduSize + msg.appended prepareBefore)) ∧
      result.actions.count .prepare = if prepareBefore then 1 else 0 := by
  rcases isValid_iff.mp valid with ⟨backend, kept, net_eq⟩
  rcases ready_of_room (fun prepared => net_eq.symm.trans (sameNet prepared)) nonempty room with
    ⟨framed, next, done, response_eq, aduSize_eq, size_eq, length_eq⟩
  have taken := Storage.slice_eq_some framed.adu 0 framed.aduSize (by omega) (by omega)
  have sameLoop : dev.recovering framed = dev.recovering msg := by
    simp only [recovering, response_eq]
  let frame := framed.adu.take framed.aduSize
  rcases sendLoop_of_ends frame ends with ⟨last, actions, final, looped, sent, unprepared⟩
  let accepted : RawSend :=
    { rc := last.rc, errno := last.errno, msg := framed, backend := next,
      actions := (if prepareBefore then [.prepare] else []) ++ actions, unused := [] }
  have run : dev.sendRawMessage msg prepareBefore attempts = .ok (some
      (if last.rc > 0 ∧ last.rc ≠ framed.size then { accepted with rc := -1, errno := .badData }
      else accepted)) := by
    simp only [sendRawMessage, kept, done, ok_bind, if_true, taken, checked_some, sameLoop,
      Int.toNat_zero, List.drop_zero]
    rw [looped]
    dsimp only
    split <;> rfl
  have transmitted : transmissions accepted.actions = List.replicate attempts.length frame := by
    simp only [accepted]
    rw [transmissions_append, sent]
    cases prepareBefore <;> rfl
  have preparations : accepted.actions.count .prepare = if prepareBefore then 1 else 0 := by
    simp only [accepted]
    rw [List.count_append, unprepared]
    cases prepareBefore <;> rfl
  have frame_eq : frame = framed.adu.take (msg.aduSize + msg.appended prepareBefore) := by
    rw [← aduSize_eq]
  have comparison : (framed.size : ℤ) = msg.size + msg.appended prepareBefore := by omega
  rw [frame_eq] at transmitted
  rw [comparison] at run
  by_cases wrong : last.rc > 0 ∧ last.rc ≠ msg.size + msg.appended prepareBefore
  · rw [if_pos wrong] at run
    refine ⟨_, last, run, final, rfl, ?_, transmitted, preparations⟩
    rw [if_pos wrong]
    exact ⟨rfl, rfl⟩
  · rw [if_neg wrong] at run
    refine ⟨_, last, run, final, rfl, ?_, transmitted, preparations⟩
    rw [if_neg wrong]
    exact ⟨rfl, rfl⟩

theorem sendRawMessage_noRoom {dev : Device} {msg : Message} {prepareBefore : Bool}
    (attempts : List Attempt) (valid : dev.isValid = true)
    (sameNet : prepareBefore = true → dev.net = msg.net) (nonempty : 1 ≤ msg.size)
    (carried : msg.aduSize ≤ msg.adu.length)
    (noRoom : msg.adu.length < msg.aduSize + msg.appended prepareBefore) :
    dev.sendRawMessage msg prepareBefore attempts = .error .outOfBounds := by
  cases prepareBefore with
  | false =>
      simp only [Message.appended, Bool.false_eq_true, if_false] at noRoom
      omega
  | true =>
      rcases Message.rtu_of_noRoom carried noRoom with ⟨rtu, short⟩
      rcases isValid_iff.mp valid with ⟨backend, kept, net_eq⟩
      have same := net_eq.symm.trans (sameNet rfl)
      simp only [sendRawMessage, kept, if_true,
        Message.layer_prepareToSend_noRoom same rtu nonempty short, error_bind]

theorem rawSendLaw_iff_of_room {dev : Device} {msg : Message} {prepareBefore : Bool}
    {attempts : List Attempt} (valid : dev.isValid = true)
    (sameNet : prepareBefore = true → dev.net = msg.net) (nonempty : 1 ≤ msg.size)
    (room : msg.aduSize + msg.appended prepareBefore ≤ msg.adu.length)
    (outcomes : ∀ attempt ∈ attempts, attempt.rc = -1 ∨
      0 < attempt.rc ∧ attempt.rc ≤ msg.aduSize + msg.appended prepareBefore)
    (ends : EndsLoop (dev.recovering msg) attempts) :
    dev.RawSendLaw msg prepareBefore attempts ↔
      ∀ last ∈ attempts.getLast?, msg.Distinguished prepareBefore last.rc := by
  rcases sendRawMessage_ok valid sameNet nonempty room ends with
    ⟨result, last, run, final, consumed, returned, transmitted, preparations⟩
  have extent := Message.aduSize_eq_of_size_pos nonempty
  have header := msg.pduBegin_pos
  have lastOutcome := outcomes last (List.mem_of_getLast? final)
  have unique : ∀ candidate ∈ attempts.getLast?, candidate = last := by
    intro candidate found
    rw [final] at found
    cases found
    rfl
  constructor
  · rintro ⟨other, otherRun, _, lawful⟩ candidate found
    cases unique candidate found
    cases run.symm.trans otherRun
    have full := lawful.full last final
    have part := lawful.part last final
    by_cases failed : last.rc = -1
    · exact Or.inl failed
    · right
      split at returned
      · -- The report of an error excludes a complete transmission.
        next wrong =>
        refine ⟨wrong.2, ?_⟩
        intro complete
        have reported := full.mpr complete
        omega
      · -- Otherwise the backend sent as many bytes as the PDU has.
        next accepted =>
        have reported := part (by omega) (by omega)
        omega
  · intro condition
    have lastCondition := condition last final
    simp only [Message.Distinguished] at lastCondition
    refine ⟨result, run, consumed, ?_, ?_, ?_, ?_, ?_, preparations, ?_⟩
    · intro candidate found
      cases unique candidate found
      split at returned <;> omega
    · intro candidate found positive partly
      cases unique candidate found
      rw [if_pos (by omega)] at returned
      exact returned
    · intro candidate found failed
      cases unique candidate found
      rw [if_neg (by omega)] at returned
      exact returned.1.trans failed
    · rw [transmitted, List.length_replicate]
    · intro several
      exact again_of_ends several ends
    · intro frame sent
      rw [transmitted] at sent
      exact List.eq_of_mem_replicate sent

/-- A raw send obeys the law exactly when there is room for the CRC it appends, and its last backend call
failed or sent a part of the ADU whose length differs from that of the PDU: sending the whole ADU counts
as an error, and sending as many bytes as the PDU has as a success. -/
theorem rawSendLaw_iff {dev : Device} {msg : Message} {prepareBefore : Bool}
    {attempts : List Attempt} (valid : dev.isValid = true)
    (sameNet : prepareBefore = true → dev.net = msg.net) (nonempty : 1 ≤ msg.size)
    (carried : msg.aduSize ≤ msg.adu.length)
    (outcomes : ∀ attempt ∈ attempts, attempt.rc = -1 ∨
      0 < attempt.rc ∧ attempt.rc ≤ msg.aduSize + msg.appended prepareBefore)
    (ends : EndsLoop (dev.recovering msg) attempts) :
    dev.RawSendLaw msg prepareBefore attempts ↔
      msg.aduSize + msg.appended prepareBefore ≤ msg.adu.length ∧
        ∀ last ∈ attempts.getLast?, msg.Distinguished prepareBefore last.rc := by
  by_cases room : msg.aduSize + msg.appended prepareBefore ≤ msg.adu.length
  · rw [rawSendLaw_iff_of_room valid sameNet nonempty room outcomes ends]
    exact (and_iff_right room).symm
  · have outside := sendRawMessage_noRoom attempts valid sameNet nonempty carried (by omega)
    refine iff_of_false ?_ (fun condition => room condition.1)
    rintro ⟨result, run, _⟩
    rw [outside] at run
    cases run

theorem rawSendLaw_iff_of_retriedRequest :
    ∃ msg, Message.create (.net .rtu) (.adu [0x21, 7, 0x58, 0x22]) = .ok msg ∧
      ({ Device.create .rtu Context.silent with recoveryLink := true }.RawSendLaw msg false
        [⟨-1, .brokenPipe⟩, ⟨1, .other 0⟩] ↔
          msg.aduSize + msg.appended false ≤ msg.adu.length ∧
            ∀ last ∈ [Attempt.mk (-1) .brokenPipe, ⟨1, .other 0⟩].getLast?,
              msg.Distinguished false last.rc) := by
  refine ⟨_, rfl, ?_⟩
  apply rawSendLaw_iff
  · rfl
  · intro prepared
    cases prepared
  · decide
  · decide
  · decide
  · exact ⟨[⟨-1, .brokenPipe⟩], ⟨1, .other 0⟩, rfl, by decide, by decide⟩

/-- All four bytes of a frame are sent, and the send returns an error. -/
theorem complete_send_reported_as_error :
    ∃ msg, Message.create (.net .rtu) (.adu [0x21, 7, 0x58, 0x22]) = .ok msg ∧
      ¬(Device.create .rtu Context.silent).RawSendLaw msg false [⟨4, .other 0⟩] := by
  refine ⟨_, rfl, ?_⟩
  rintro ⟨result, run, _, lawful⟩
  cases run
  have complete := (lawful.full ⟨4, .other 0⟩ rfl).mpr rfl
  exact absurd complete (by decide)

end Device

end Modbuspp
