import Modbuspp.Server.Task

/-!
# Failures of the stages

A transaction goes through the relay of reads, the reply and the relay of writes, and ends at the first of
them that fails. What the failed stage returned is meant to be returned to the caller of the task, but the
last assignment of the task overwrites it.
-/

namespace Modbuspp

/-- The stage has failed. -/
def Stage.Failed : Stage → Prop
  | .readFromDevice ret => ret < 0
  | .reply _ _ answer => answer.rc < 0
  | .writeToDevice ret => ret < 0

/-- The task returns, with a negative value exactly when one of its stages has failed. No stage runs after
a failed one. -/
def Handled.Reported (handled : Handled) : Prop :=
  ∃ rc, handled.result = .ok rc ∧ (rc < 0 ↔ ∃ stage ∈ handled.stages, stage.Failed) ∧
    ∀ before stage later, handled.stages = before ++ stage :: later → stage.Failed → later = []

namespace Station

variable (st : Station) (reply : ModbusReply) (req : Message) (rc : ℤ)

/-- The relay of a read. -/
def relayedRead : Except Fault ℤ × Station := st.readFromDevice (some req)

/-- What the callback before the reply makes of the request and of the mapping. -/
def passedRead : ℤ × Message × Mapping :=
  Callback.outcome (st.relayedRead req).2.slave.beforeReplyCB req (st.relayedRead req).2.slave.map

/-- The reply. -/
def replied : Reply := reply.run (st.passedRead req).2.1 rc (st.passedRead req).2.2

/-- What the callback after the reply makes of them. -/
def passedReply : ℤ × Message × Mapping :=
  Callback.outcome (st.relayedRead req).2.slave.afterReplyCB (st.passedRead req).2.1
    (st.replied reply req rc).map

/-- The relay of a write. -/
def relayedWrite : Except Fault ℤ × Station :=
  ((st.relayedRead req).2.withMap (st.passedReply reply req rc).2.2).writeToDevice
    (some (st.passedReply reply req rc).2.1)

/-- Each callback that is executed returns 0. -/
def Regular : Prop :=
  ∀ read, (st.relayedRead req).1 = .ok read → 0 ≤ read →
    (st.passedRead req).1 = 0 ∧
      (0 ≤ (st.replied reply req rc).rc → (st.passedReply reply req rc).1 = 0)

/-- None of the stages fails. -/
def Succeeds : Prop :=
  ∃ read, (st.relayedRead req).1 = .ok read ∧ 0 ≤ read ∧ 0 ≤ (st.replied reply req rc).rc ∧
    ∃ written, (st.relayedWrite reply req rc).1 = .ok written ∧ 0 ≤ written

variable {st reply req rc}

theorem serve_of_unread (reply : ModbusReply) (rc : ℤ) {read : ℤ}
    (run : (st.relayedRead req).1 = .ok read) (failed : read < 0) :
    (st.serve reply req rc).result = .ok none ∧
      (st.serve reply req rc).stages = [.readFromDevice read] := by
  have run_eq : st.readFromDevice (some req) = (.ok read, (st.relayedRead req).2) :=
    Prod.ext run rfl
  simp only [serve, run_eq, if_pos failed, and_self]

theorem serve_of_read_thrown (reply : ModbusReply) (rc : ℤ) {fault : Fault}
    (run : (st.relayedRead req).1 = .error fault) : (st.serve reply req rc).result = .error fault := by
  have run_eq : st.readFromDevice (some req) = (.error fault, (st.relayedRead req).2) :=
    Prod.ext run rfl
  simp only [serve, run_eq]

theorem serve_of_read {read : ℤ} (run : (st.relayedRead req).1 = .ok read) (nonneg : 0 ≤ read)
    (passes : (st.passedRead req).1 = 0) :
    st.serve reply req rc =
      if (st.replied reply req rc).rc < 0 then
        { result := .ok none
          station := (st.relayedRead req).2.withMap (st.replied reply req rc).map
          req := (st.passedRead req).2.1
          stages := [.readFromDevice read,
            .reply (st.passedRead req).2.1 (st.passedRead req).2.2 (st.replied reply req rc)] }
      else
        ((st.relayedRead req).2.withMap (st.replied reply req rc).map).afterReply
          (st.passedRead req).2.1 [.readFromDevice read,
            .reply (st.passedRead req).2.1 (st.passedRead req).2.2 (st.replied reply req rc)] := by
  have run_eq : st.readFromDevice (some req) = (.ok read, (st.relayedRead req).2) :=
    Prod.ext run rfl
  have outcome_eq : Callback.outcome (st.relayedRead req).2.slave.beforeReplyCB req
      (st.relayedRead req).2.slave.map = (0, (st.passedRead req).2) := Prod.ext passes rfl
  have started : ¬read < 0 := by omega
  simp only [serve, run_eq, if_neg started, outcome_eq, ne_eq, not_true_eq_false, if_false]
  rfl

/-- The second callback lets the request pass to the relay of writes. -/
theorem afterReply_of_replied (stages : List Stage) (passes : (st.passedReply reply req rc).1 = 0) :
    ((st.relayedRead req).2.withMap (st.replied reply req rc).map).afterReply
        (st.passedRead req).2.1 stages =
      match st.relayedWrite reply req rc with
      | (.error fault, after) =>
          { result := .error fault, station := after, req := (st.passedReply reply req rc).2.1, stages }
      | (.ok ret, after) =>
          { result := .ok none, station := after, req := (st.passedReply reply req rc).2.1,
            stages := stages ++ [.writeToDevice ret] } := by
  have outcome_eq : Callback.outcome (st.relayedRead req).2.slave.afterReplyCB
      (st.passedRead req).2.1 (st.replied reply req rc).map =
        (0, (st.passedReply reply req rc).2) := Prod.ext passes rfl
  exact afterReply_of_passed ((st.relayedRead req).2.withMap (st.replied reply req rc).map)
    stages outcome_eq

/-- How a transaction can go: a relay throws, or the stages are executed up to the first that fails. -/
inductive Course (succeeds : Prop) (served : Served) : Prop where
  | thrown (fault : Fault) (result : served.result = .error fault) (failed : ¬succeeds)
  | returned (init : List Stage) (last : Stage) (result : served.result = .ok none)
      (stages : served.stages = init ++ [last]) (others : ∀ stage ∈ init, ¬stage.Failed)
      (failed : last.Failed ↔ ¬succeeds)

theorem succeeds_iff_of_read {read : ℤ} (run : (st.relayedRead req).1 = .ok read) :
    st.Succeeds reply req rc ↔ 0 ≤ read ∧ 0 ≤ (st.replied reply req rc).rc ∧
      ∃ written, (st.relayedWrite reply req rc).1 = .ok written ∧ 0 ≤ written := by
  simp only [Succeeds, run, Except.ok.injEq, exists_eq_left']

theorem serve_course (regular : st.Regular reply req rc) :
    Course (st.Succeeds reply req rc) (st.serve reply req rc) := by
  cases run : (st.relayedRead req).1 with
  | error fault =>
      refine .thrown fault (serve_of_read_thrown reply rc run) ?_
      rintro ⟨read, returned, _⟩
      rw [run] at returned
      cases returned
  | ok read =>
      rw [succeeds_iff_of_read run]
      by_cases failed : read < 0
      · rcases serve_of_unread reply rc run failed with ⟨result, stages⟩
        refine .returned [] _ result stages (by simp) (iff_of_true failed ?_)
        rintro ⟨nonneg, _⟩
        omega
      · rcases regular read run (by omega) with ⟨passes, regular⟩
        rw [serve_of_read run (by omega) passes]
        by_cases unanswered : (st.replied reply req rc).rc < 0
        · rw [if_pos unanswered]
          refine .returned [_] _ rfl rfl (by simpa [Stage.Failed] using failed)
            (iff_of_true unanswered ?_)
          rintro ⟨_, answered, _⟩
          omega
        · rw [if_neg unanswered, afterReply_of_replied _ (regular (by omega))]
          rcases st.relayedWrite reply req rc with ⟨fault | written, after⟩
          · refine .thrown fault rfl ?_
            rintro ⟨_, _, _, returned, _⟩
            cases returned
          · refine .returned [_, _] _ rfl rfl ?_ ?_
            · simpa [Stage.Failed] using And.intro failed unanswered
            · simp only [Stage.Failed, Except.ok.injEq, exists_eq_left']
              omega

end Station

theorem eq_nil_of_last {α : Type} {property : α → Prop} {init : List α} {last : α}
    (others : ∀ x ∈ init, ¬property x) {before later : List α} {x : α}
    (parted : init ++ [last] = before ++ x :: later) (holds : property x) : later = [] := by
  rcases List.eq_nil_or_concat later with none | ⟨rest, final, rfl⟩
  · exact none
  · have parts : init ++ [last] = (before ++ x :: rest) ++ [final] := by
      rw [parted, List.concat_eq_append, ← List.cons_append, List.append_assoc]
    have init_eq := (List.append_inj' parts rfl).1
    exact absurd holds (others x (by rw [init_eq]; simp))

/-- A task that ended regularly has reported its failures when there were none. -/
theorem Handled.reported_iff {handled : Handled} {init : List Stage} {last : Stage}
    (result : handled.result = .ok 0) (stages : handled.stages = init ++ [last])
    (others : ∀ stage ∈ init, ¬stage.Failed) : handled.Reported ↔ ¬last.Failed := by
  constructor
  · rintro ⟨rc, returned, negative, _⟩ failed
    rw [result] at returned
    cases returned
    have contrary := negative.mpr ⟨last, by rw [stages]; simp, failed⟩
    omega
  · intro passed
    refine ⟨0, result, ?_, ?_⟩
    · refine iff_of_false (by omega) ?_
      rintro ⟨stage, mem, failed⟩
      rw [stages, List.mem_append, List.mem_singleton] at mem
      rcases mem with early | rfl
      · exact others stage early failed
      · exact passed failed
    · intro before stage later parted failed
      rw [stages] at parted
      exact eq_nil_of_last others parted failed

namespace Server

variable {srv : Server} {slv : BufferedSlave} {id : ℤ}

/-- A message that is ready is handed to the task. -/
theorem poll_ready (open_ : srv.device.isOpen = true) (errno : Errno) (d : Delivery) :
    srv.poll false errno (some d) = srv.deliver { d with errno } := by
  simp only [poll, open_, Bool.not_false, Bool.and_self, if_true]

/-- The task reports the failures of a transaction exactly when there are none to be reported. -/
theorem deliver_reported_iff {d : Delivery} (positive : 0 < d.rc) (addressee : d.req.slave = .ok id)
    (registered : srv.slave id = some slv)
    (regular : (srv.station slv).Regular d.reply d.req d.rc) :
    (srv.deliver d).Reported ↔
      srv.device.ctx.accepts id = false ∨ (srv.station slv).Succeeds d.reply d.req d.rc := by
  have present : (srv.received d).req = some d.req := rfl
  cases accepts : srv.device.ctx.accepts id with
  | false =>
      have run : srv.deliver d = _ := task_of_refused (srv.received d) d.links d.reply positive present
        addressee registered accepts
      rw [run]
      exact iff_of_true ⟨0, rfl, by simp, by simp⟩ (Or.inl rfl)
  | true =>
      rcases task_of_registered (srv.received d) d.links d.reply positive present addressee registered
        accepts with ⟨dev, run⟩
      have handled : srv.deliver d = _ := run
      rw [handled]
      simp only [Bool.true_eq_false, false_or]
      cases Station.serve_course regular with
      | thrown fault thrown failed =>
          have ended :
              ((srv.station slv).serve d.reply d.req d.rc).result.map (·.getD 0) = .error fault := by
            rw [thrown]
            rfl
          refine iff_of_false ?_ failed
          rintro ⟨rc, returned, _⟩
          cases ended.symm.trans returned
      | returned init last result stages others failed =>
          have returned :
              ((srv.station slv).serve d.reply d.req d.rc).result.map (·.getD 0) = .ok 0 := by
            rw [result]
            rfl
          refine (Handled.reported_iff returned stages others).trans ?_
          rw [failed, not_not]

/-- The failures of a transaction are reported, by the task and by `poll`, exactly when there are none to
be reported. -/
theorem failures_reported_iff {d : Delivery} (errno : Errno) (open_ : srv.device.isOpen = true)
    (positive : 0 < d.rc) (addressee : d.req.slave = .ok id) (registered : srv.slave id = some slv)
    (regular : (srv.station slv).Regular d.reply d.req d.rc) :
    (srv.deliver d).Reported ∧ (srv.poll false errno (some d)).Reported ↔
      srv.device.ctx.accepts id = false ∨ (srv.station slv).Succeeds d.reply d.req d.rc := by
  have delivered := deliver_reported_iff positive addressee registered regular
  have polled : (srv.poll false errno (some d)).Reported ↔
      srv.device.ctx.accepts id = false ∨ (srv.station slv).Succeeds d.reply d.req d.rc := by
    rw [poll_ready open_]
    exact deliver_reported_iff (d := { d with errno }) positive addressee registered regular
  rw [delivered, polled, and_self]

/-- A router with one register behind an open link on which every transfer fails. -/
def unheard (value : UInt16) : Server :=
  { routing value with
    devices := fun _ => { Device.create .rtu Context.silent with isOpen := true } }

theorem failures_reported_iff_of_routing :
    ∃ req, Message.create (.net .rtu) (.adu [1, 6, 0, 0, 0, 9, 0x49, 0xCC]) = .ok req ∧
      (((routing 7).deliver (.frame req 8)).Reported ∧
          ((routing 7).poll false .none (some (.frame req 8))).Reported ↔
        (routing 7).device.ctx.accepts 1 = false ∨
          ((routing 7).station (Station.holding 0 [7]).slave).Succeeds .singleRegister req 8) := by
  refine ⟨_, rfl, ?_⟩
  apply failures_reported_iff
  · rfl
  · decide
  · rfl
  · rfl
  · exact fun _ _ _ => ⟨rfl, fun _ => rfl⟩

/-- A failed stage in a task that returned 0. -/
theorem not_reported {handled : Handled} (result : handled.result = .ok 0) {stage : Stage}
    (mem : stage ∈ handled.stages) (failed : stage.Failed) : ¬handled.Reported := by
  rintro ⟨rc, returned, negative, _⟩
  rw [result] at returned
  cases returned
  have contrary := negative.mpr ⟨stage, mem, failed⟩
  omega

/-- The relay of a write fails after the reply, and the task returns 0. -/
theorem failed_write_unreported :
    ∃ req, Message.create (.net .rtu) (.adu [1, 6, 0, 0, 0, 9, 0x49, 0xCC]) = .ok req ∧
      ((unheard 7).station (Station.holding 0 [7]).slave).Regular .singleRegister req 8 ∧
      ((unheard 7).deliver (.frame req 8)).result = .ok 0 ∧
      Stage.writeToDevice (-1) ∈ ((unheard 7).deliver (.frame req 8)).stages ∧
      ¬((unheard 7).deliver (.frame req 8)).Reported := by
  have failed : (Stage.writeToDevice (-1)).Failed := (by decide : (-1 : ℤ) < 0)
  have last : ∀ {first second : Stage}, Stage.writeToDevice (-1) ∈ [first, second, .writeToDevice (-1)] := by
    intro first second
    simp
  exact ⟨_, rfl, fun _ _ _ => ⟨rfl, fun _ => rfl⟩, rfl, last, not_reported rfl last failed⟩

end Server

end Modbuspp
