import Modbuspp.Server.Task

/-!
# Rejected writes

A write that libmodbus answers with an exception should not reach the equipment. The task looks at the
sign of the length of the answer only, which exceptions have as well, so the relay runs and moves the
request into the block.
-/

namespace Modbuspp

/-- The answer to a request that libmodbus rejects: an exception frame of positive length, with the
mapping left as it was. -/
structure Reply.Rejects (answer : Reply) (before : Mapping) : Prop where
  exception : answer.exception = true
  sent : 0 < answer.rc
  unchanged : answer.map = before

/-- The transfers that write to the equipment. -/
def Transfer.isWrite : Transfer → Bool
  | read _ _ _ => false
  | writeOne _ _ _ => true
  | write _ _ _ => true
  | writeAndRead _ _ _ _ => true
  | reportSlaveId _ => false

/-- The request is not one that the relay writes to the device: its function is not relayed as a write, or
the link of the device refuses the number of the slave. -/
def Station.Unwritten (st : Station) (req : Message) : Prop :=
  ∃ func start nb, req.Requests func start nb ∧
    ∀ t, func.written = some t → st.accepted = false ∧ (st.slave.map t).cells ≠ []

/-- Nothing has been written to a device since. -/
def NoWrite (before after : List Sent) : Prop :=
  ∃ transfers, after = before ++ transfers ∧ ∀ s ∈ transfers, s.transfer.isWrite = false

/-- The task returns, and it has written nothing to the device of the slave. -/
def Handled.SparesDevice (handled : Handled) (srv : Server) (slv : BufferedSlave) : Prop :=
  (∃ rc, handled.result = .ok rc) ∧
    NoWrite (srv.station slv).sent (handled.server.station slv).sent

theorem noWrite_refl (sent : List Sent) : NoWrite sent sent :=
  ⟨[], (List.append_nil sent).symm, by simp⟩

theorem not_noWrite_append {sent : List Sent} {id : ℤ} {transfer : Transfer}
    (write : transfer.isWrite = true) : ¬NoWrite sent (sent ++ [⟨id, transfer⟩]) := by
  rintro ⟨transfers, sent_eq, reads⟩
  have only : transfers = [⟨id, transfer⟩] := (List.append_cancel_left sent_eq).symm
  have read := reads ⟨id, transfer⟩ (by rw [only]; exact List.mem_singleton_self _)
  rw [write] at read
  cases read

theorem Message.relayFields_cases (req : Message) :
    (∃ fault, req.relayFields = .error fault) ∨ ∃ func start nb, req.Requests func start nb := by
  cases fields : req.relayFields with
  | error fault => exact Or.inl ⟨fault, rfl⟩
  | ok values =>
      simp only [relayFields, bind_eq_ok_iff, pure_eq_ok, Except.ok.injEq] at fields
      rcases fields with ⟨start, start_eq, nb, nb_eq, func, func_eq, rfl⟩
      refine Or.inr ⟨func, start.toNat, nb.toNat, ⟨?_⟩⟩
      simp only [relayFields, start_eq, nb_eq, func_eq, ok_bind, pure_eq_ok]

namespace Station

variable {st : Station} {reply : ModbusReply} {req passed left : Message} {rc stop : ℤ}
  {before : Mapping} {func : Function} {t : Table} {start nb : ℕ}

theorem unwritten_iff (st : Station) (requests : req.Requests func start nb) :
    st.Unwritten req ↔
      ∀ t, func.written = some t → st.accepted = false ∧ (st.slave.map t).cells ≠ [] := by
  constructor
  · rintro ⟨_, _, _, requested, unwritten⟩
    rcases requests.unique requested with ⟨rfl, _, _⟩
    exact unwritten
  · intro unwritten
    exact ⟨func, start, nb, requests, unwritten⟩

theorem writeToDevice_of_empty (open_ : st.isOpen = true) (requests : req.Requests func start nb)
    (write : func.written = some t) (empty : (st.slave.map t).cells = []) :
    st.writeToDevice (some req) = (.error .outOfBounds, st) := by
  rcases Function.written_cases write with one | several
  · rw [writeToDevice_eq_of_writesOne open_ requests one]
    exact relayWriteOne_of_empty t empty start _
  · rw [writeToDevice_eq_of_writes open_ requests several]
    exact relayWrite_of_empty t empty start nb _

/-- Wherever the request lies, its relay writes to the device. -/
theorem writeToDevice_of_elements (open_ : st.isOpen = true) (sound : st.slave.map.Sound)
    (requests : req.Requests func start nb) (write : func.written = some t)
    (elements : (st.slave.map t).cells ≠ []) :
    ∃ rc transfer, transfer.isWrite = true ∧ st.writeToDevice (some req) =
      if st.accepted then (.ok rc, st.transferred transfer) else (.ok (-1), st) := by
  rcases Function.written_cases write with one | several
  · rcases relayWriteOne_spec t open_ (sound t) elements start with ⟨_, _, transfer, _, _, rfl, run⟩
    rw [writeToDevice_eq_of_writesOne open_ requests one]
    exact ⟨_, _, rfl, run⟩
  · rcases relayWrite_spec t open_ (sound t) elements start nb with ⟨_, _, transfer, _, _, rfl, run⟩
    rw [writeToDevice_eq_of_writes open_ requests several]
    exact ⟨_, _, rfl, run⟩

/-- What the relay of writes can do: nothing, a fault, or one write. -/
inductive WriteOutcome (st : Station) (req : Message) : Except Fault ℤ × Station → Prop where
  | unwritten (rc : ℤ) (unwritten : st.Unwritten req) : WriteOutcome st req (.ok rc, st)
  | fault (fault : Fault) (addressed : ¬st.Unwritten req) : WriteOutcome st req (.error fault, st)
  | write (rc : ℤ) (transfer : Transfer) (write : transfer.isWrite = true)
      (addressed : ¬st.Unwritten req) : WriteOutcome st req (.ok rc, st.transferred transfer)

theorem writeToDevice_outcome (st : Station) (open_ : st.isOpen = true) (sound : st.slave.map.Sound)
    (req : Message) : WriteOutcome st req (st.writeToDevice (some req)) := by
  rcases req.relayFields_cases with ⟨fault, fields⟩ | ⟨func, start, nb, requests⟩
  · have run : st.writeToDevice (some req) = (.error fault, st) := by
      simp only [writeToDevice, if_pos open_, fields]
    rw [run]
    apply WriteOutcome.fault
    rintro ⟨func, start, nb, requests, _⟩
    rw [requests.fields] at fields
    cases fields
  · have kind := unwritten_iff st requests
    cases write : func.written with
    | none =>
        rcases Function.written_eq_none write with ⟨one, several⟩
        rw [writeToDevice_eq_of_not_writes open_ requests one several]
        apply WriteOutcome.unwritten
        rw [kind]
        intro t addressed
        rw [write] at addressed
        cases addressed
    | some t =>
        by_cases empty : (st.slave.map t).cells = []
        · rw [writeToDevice_of_empty open_ requests write empty]
          apply WriteOutcome.fault
          rw [kind]
          exact fun unwritten => (unwritten t write).2 empty
        · rcases writeToDevice_of_elements open_ sound requests write empty with
            ⟨rc, transfer, writing, run⟩
          rw [run]
          cases accepts : st.accepted with
          | true =>
              apply WriteOutcome.write rc transfer writing
              rw [kind]
              intro unwritten
              have refused := (unwritten t write).1
              rw [accepts] at refused
              cases refused
          | false =>
              apply WriteOutcome.unwritten
              rw [kind]
              intro other addressed
              rw [write] at addressed
              cases addressed
              exact ⟨accepts, empty⟩

/-- A write whose rejection has been sent to the client either ends there, or is relayed. -/
theorem serve_of_rejected {second : ℤ} {map : Mapping} (open_ : st.isOpen = true)
    (sound : st.slave.map.Sound) (requests : req.Requests func start nb)
    (write : func.written = some t)
    (first_eq : Callback.outcome st.slave.beforeReplyCB req st.slave.map = (stop, passed, before))
    (rejected : (reply.run passed rc before).Rejects before)
    (second_eq : Callback.outcome st.slave.afterReplyCB passed before = (second, left, map)) :
    ((stop ≠ 0 ∨ second ≠ 0 ∨ (st.withMap map).Unwritten left) ∧
      ∃ result final, (st.serve reply req rc).result = .ok result ∧
        (st.serve reply req rc).station = st.withMap final) ∨
    (¬(stop ≠ 0 ∨ second ≠ 0 ∨ (st.withMap map).Unwritten left) ∧
      ((∃ fault, (st.serve reply req rc).result = .error fault) ∨
        ∃ transfer, transfer.isWrite = true ∧
          (st.serve reply req rc).station = (st.withMap map).transferred transfer)) := by
  have unread := readFromDevice_eq_of_written open_ requests write
  have before_sound := Callback.outcome_sound st.slave.beforeReplyCB req sound
  rw [first_eq] at before_sound
  have map_sound := Callback.outcome_sound st.slave.afterReplyCB passed before_sound
  rw [second_eq] at map_sound
  have positive := rejected.sent
  by_cases stopped : stop ≠ 0
  · left
    refine ⟨Or.inl stopped, some stop, before, ?_, ?_⟩ <;>
      simp only [serve, unread, first_eq, if_pos stopped, Int.lt_irrefl, if_false]
  · have served : st.serve reply req rc = (st.withMap before).afterReply passed
        [.readFromDevice 0, .reply passed before (reply.run passed rc before)] := by
      simp only [serve, unread, first_eq, if_neg stopped, Int.lt_irrefl, if_false,
        rejected.unchanged]
      rw [if_neg (by omega)]
      rfl
    rw [served]
    by_cases ended : second ≠ 0
    · left
      refine ⟨Or.inr (Or.inl ended), some second, map, ?_, ?_⟩
      · simp only [afterReply, withMap, second_eq, if_pos ended]
      · simp only [afterReply, withMap, second_eq, if_pos ended]
    · have second_zero : second = 0 := by omega
      subst second_zero
      rw [afterReply_of_passed (st.withMap before) _ second_eq]
      have same : (st.withMap before).withMap map = st.withMap map := rfl
      rw [same]
      have outcome := writeToDevice_outcome (st.withMap map) open_ map_sound left
      generalize (st.withMap map).writeToDevice (some left) = run at outcome
      cases outcome with
      | unwritten rc unwritten =>
          exact Or.inl ⟨Or.inr (Or.inr unwritten), none, map, rfl, rfl⟩
      | fault fault addressed =>
          refine Or.inr ⟨?_, Or.inl ⟨fault, rfl⟩⟩
          rintro (contrary | contrary | unwritten)
          · exact stopped contrary
          · exact ended contrary
          · exact addressed unwritten
      | write rc transfer write addressed =>
          refine Or.inr ⟨?_, Or.inr ⟨transfer, write, rfl⟩⟩
          rintro (contrary | contrary | unwritten)
          · exact stopped contrary
          · exact ended contrary
          · exact addressed unwritten

end Station

namespace Server

variable {srv : Server} {slv : BufferedSlave} {id : ℤ}

theorem sent_station_store {served : Served} {i : ℕ} {dev : Device} (pointer : slv.dev = some i)
    (dev_eq : served.station.slave.dev = some i) (device_eq : served.station.device = some dev) :
    ((srv.store id served).station slv).sent = served.station.sent := by
  simp only [station, store, Station.sent, pointer, dev_eq, device_eq, Option.map_some,
    Function.update_self]

/-- A rejected write spares the device exactly when a callback ends the transaction, when the request
left by the callbacks is none that the relay writes, or when a link refuses the number of the slave. -/
theorem rejected_spares_iff {links : Links} {reply : ModbusReply} {req passed left : Message}
    {rc first second : ℤ} {before map : Mapping} {func : Function} {t : Table} {start nb : ℕ}
    (positive : 0 < rc) (received : srv.req = some req) (addressee : req.slave = .ok id)
    (registered : srv.slave id = some slv) (open_ : (srv.station slv).isOpen = true)
    (reachable : slv.map.Reachable) (requests : req.Requests func start nb)
    (write : func.written = some t)
    (first_eq : Callback.outcome slv.beforeReplyCB req slv.map = (first, passed, before))
    (rejected : (reply.run passed rc before).Rejects before)
    (second_eq : Callback.outcome slv.afterReplyCB passed before = (second, left, map)) :
    (srv.task links reply rc).SparesDevice srv slv ↔
      srv.device.ctx.accepts id = false ∨ first ≠ 0 ∨ second ≠ 0 ∨
        ((srv.station slv).withMap map).Unwritten left := by
  rcases Slave.isOpen_iff.mp open_ with ⟨client, found, _, _⟩
  rcases Option.map_eq_some_iff.mp found with ⟨i, pointer, _⟩
  cases accepts : srv.device.ctx.accepts id with
  | false =>
      rw [task_of_refused srv links reply positive received addressee registered accepts]
      exact iff_of_true ⟨⟨0, rfl⟩, noWrite_refl _⟩ (Or.inl rfl)
  | true =>
      rcases task_of_registered srv links reply positive received addressee registered accepts with
        ⟨dev, run⟩
      have outcome := Station.serve_of_rejected open_ reachable.sound requests write first_eq rejected
        second_eq
      generalize (srv.station slv).serve reply req rc = served at run outcome
      rw [run]
      simp only [Bool.true_eq_false, false_or]
      have sent_eq : ∀ dev', served.station.slave.dev = slv.dev → served.station.device = some dev' →
          (({ srv with device := dev }.store id served).station slv).sent = served.station.sent := by
        intro dev' dev_eq device_eq
        exact sent_station_store pointer (dev_eq.trans pointer) device_eq
      rcases outcome with ⟨spared, result, final, returned, station_eq⟩ |
        ⟨relayed, ⟨fault, failed⟩ | ⟨transfer, writing, station_eq⟩⟩
      · refine iff_of_true ⟨⟨result.getD 0, by rw [returned]; rfl⟩, ?_⟩ spared
        change NoWrite _ (({ srv with device := dev }.store id served).station slv).sent
        rw [station_eq] at sent_eq
        rw [sent_eq client rfl found]
        exact noWrite_refl _
      · refine iff_of_false ?_ relayed
        rintro ⟨⟨rc, returned⟩, _⟩
        simp only [failed] at returned
        cases returned
      · refine iff_of_false ?_ relayed
        rintro ⟨_, spared⟩
        change NoWrite _ (({ srv with device := dev }.store id served).station slv).sent at spared
        rw [station_eq] at sent_eq
        rw [sent_eq _ rfl (congrArg (Option.map _) found)] at spared
        have appended := Station.sent_transferred ((srv.station slv).withMap map) transfer open_
        rw [appended] at spared
        exact not_noWrite_append writing spared

theorem rejected_spares_iff_of_singleRegister :
    ∃ req, Message.create (.net .rtu) (.adu [1, 6, 0, 5, 0, 9, 0x59, 0xCD]) = .ok req ∧
      (((routing 7).deliver (.frame req 8)).SparesDevice ((routing 7).received (.frame req 8))
          (Station.holding 0 [7]).slave ↔
        (routing 7).device.ctx.accepts 1 = false ∨ (0 : ℤ) ≠ 0 ∨ (0 : ℤ) ≠ 0 ∨
          (((routing 7).station (Station.holding 0 [7]).slave).withMap
            (Station.holding 0 [7]).slave.map).Unwritten req) := by
  refine ⟨_, rfl, ?_⟩
  apply rejected_spares_iff
  · decide
  · rfl
  · rfl
  · rfl
  · rfl
  · exact routing_reachable 1 _ rfl
  · exact ⟨rfl⟩
  · rfl
  · rfl
  · exact ⟨rfl, by decide, rfl⟩
  · rfl

/-- A write of the register at address 5 is rejected, and the only register, at address 0, is written to
the device. -/
theorem rejected_write_relayed :
    ∃ req, Message.create (.net .rtu) (.adu [1, 6, 0, 5, 0, 9, 0x59, 0xCD]) = .ok req ∧
      (ModbusReply.singleRegister.run req 8 (Station.holding 0 [7]).slave.map).Rejects
        (Station.holding 0 [7]).slave.map ∧
      (((routing 7).next (.frame req 8)).devices 0).ctx.sent =
        [⟨1, .writeOne .holdingRegister 0 7⟩] ∧
      ¬((routing 7).deliver (.frame req 8)).SparesDevice ((routing 7).received (.frame req 8))
        (Station.holding 0 [7]).slave := by
  refine ⟨_, rfl, ⟨rfl, by decide, rfl⟩, rfl, ?_⟩
  rintro ⟨_, spared⟩
  have written : NoWrite [] ([] ++ [⟨1, .writeOne .holdingRegister 0 7⟩]) := spared
  exact not_noWrite_append rfl written

end Server

end Modbuspp
