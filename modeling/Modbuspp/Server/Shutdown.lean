import Modbuspp.Server.Progress
import Modbuspp.Server.Restart

/-!
# The end of the daemon

`terminate` fulfils the promise and waits for the daemon, which looks at the promise once in each pass of its
loop. So the daemon hands over one more message at most, and it ends when `receive` has returned once more.
No daemon runs afterwards.
-/

namespace Modbuspp

/-- How many steps of the daemon are left when it was told to stop. -/
def Daemon.distance : Daemon → ℕ
  | receiving => 3
  | handling _ _ => 2
  | waiting => 1
  | finished => 0

/-- The messages that it may hand over until then. -/
def Daemon.allowance : Daemon → ℕ
  | receiving => 1
  | handling _ _ => 1
  | waiting => 0
  | finished => 0

namespace Service

/-- The program waits in `terminate` for the daemon, which has a number of steps left at most. Since
`handed` was the list of the messages that were handed over, there was one more at most. -/
structure Stopping (handed : List ℕ) (closes : Bool) (distance : ℕ) (s : Service) : Prop where
  alive : s.aborted = false
  joining : s.caller = .joining closes
  promise : s.stopDaemon.retrieved = true ∧ s.stopDaemon.satisfied = true
  daemon : ∃ phase more, s.daemon = some phase ∧ phase.distance ≤ distance ∧
    s.handed = more ++ handed ∧ more.length + phase.allowance ≤ 1

/-- No daemon runs, and none can be started. -/
structure Stopped (s : Service) : Prop where
  daemon : s.daemon = none
  retrieved : s.stopDaemon.retrieved = true

/-- A program that waits for the daemon has told it to stop. -/
structure Told (s : Service) : Prop where
  fits : s.Fits
  satisfied : ∀ closes, s.caller = .joining closes → s.stopDaemon.satisfied = true
  running : ∀ closes, s.caller = .joining closes → s.daemon ≠ none

/-- In a run from this state `terminate` has returned, or `close`, and no daemon has run since then. -/
def Returned (handed : List ℕ) (closes : Bool) (s : Service) (run : List Event) : Prop :=
  ∃ before rest ended, run = before ++ Event.join :: rest ∧
    (before ++ [Event.join]).foldl step s = ended ∧ ended.caller = .idle ∧ ended.Stopped ∧
    (closes = true → ended.isOpen = false) ∧
    (∃ more, ended.handed = more ++ handed ∧ more.length ≤ 1) ∧ (rest.foldl step ended).Stopped

/-- What the daemon needs to end once `receive` has returned: this is handled, and the loop looks at the
promise. -/
def ending (links : Links) (reply : ModbusReply) : List Event :=
  [.daemonHandle links reply, .daemonWake, .join]

/-- `receive` returns here, with a message or without, when the daemon waits for it. -/
def Returns (s : Service) (reception : Reception) : Prop :=
  s.daemon = some .receiving → s.receive reception ≠ none

variable {s after : Service} {event : Event} {handed : List ℕ} {closes : Bool} {distance : ℕ}

theorem create_told (server : Server) : (create server).Told := by
  refine ⟨create_fits server, ?_, ?_⟩
  · intro closes joining
    cases joining
  · intro closes joining
    cases joining

/-- A state in which the program does not wait for the daemon. -/
theorem Fits.told (fits : s.Fits) (elsewhere : ∀ closes, s.caller ≠ .joining closes) : s.Told :=
  ⟨fits, fun closes joining => absurd joining (elsewhere closes),
    fun closes joining => absurd joining (elsewhere closes)⟩

theorem move_told (told : s.Told) (move : s.Move event after) : after.Told := by
  have fits := move_fits told.fits move
  cases move with
  | none => exact told
  | opens links => exact ⟨fits, told.satisfied, told.running⟩
  | polls stopped => exact fits.told fun closes => Caller.noConfusion
  | expires polling => exact fits.told fun closes => Caller.noConfusion
  | takes polling ready => exact fits.told fun closes => Caller.noConfusion
  | starts idle stopped open_ first =>
      apply fits.told
      intro closes joining
      exact Caller.noConfusion (idle.symm.trans joining)
  | signals idle running =>
      exact ⟨fits, fun _ _ => rfl, fun _ _ => Option.isSome_iff_ne_none.mp running⟩
  | closes stopped => exact ⟨fits, told.satisfied, told.running⟩
  | joins joining finished =>
      apply fits.told
      intro closes
      simp only [joined]
      split <;> exact Caller.noConfusion
  | arrives message => exact ⟨fits, told.satisfied, told.running⟩
  | taskReceives receiving received =>
      rcases receive_frame received with ⟨_, _, _, rfl⟩
      exact ⟨fits, told.satisfied, told.running⟩
  | wakes waiting => exact ⟨fits, told.satisfied, fun _ _ => Option.some_ne_none _⟩
  | daemonReceives receiving received =>
      rcases receive_frame received with ⟨_, _, _, rfl⟩
      exact ⟨fits, told.satisfied, fun _ _ => Option.some_ne_none _⟩
  | handles handling => exact ⟨fits, told.satisfied, fun _ _ => Option.some_ne_none _⟩
  | aborts handling => exact ⟨fits, told.satisfied, fun _ _ => Option.some_ne_none _⟩

theorem told_of_run (server : Server) (events : List Event) :
    (events.foldl step (create server)).Told := by
  have fold : ∀ s : Service, s.Told → (events.foldl step s).Told := by
    induction events with
    | nil => exact fun s told => told
    | cons event events ih => exact fun s told => ih _ (move_told told (step_move s event))
  exact fold _ (create_told server)

/-- The state in which the program begins to wait, or waits already. -/
theorem Told.stopping (told : s.Told) (alive : s.aborted = false) (joining : s.caller = .joining closes) :
    s.Stopping s.handed closes 3 := by
  have satisfied := told.satisfied closes joining
  refine ⟨alive, joining, ⟨told.fits.satisfied satisfied, satisfied⟩, ?_⟩
  cases found : s.daemon with
  | none => exact absurd found (told.running closes joining)
  | some phase =>
      refine ⟨phase, [], rfl, ?_, rfl, ?_⟩
      · cases phase <;> simp [Daemon.distance]
      · cases phase <;> simp [Daemon.allowance]

/-- The daemon has gone on, and nothing else that matters for the stop has changed. -/
theorem Stopping.goesOn {next : ℕ} (stopping : s.Stopping handed closes distance) {phase last : Daemon}
    (running : s.daemon = some phase) (alive : after.aborted = false) (caller : after.caller = s.caller)
    (promise : after.stopDaemon = s.stopDaemon) (daemon : after.daemon = some last)
    (nearer : last.distance ≤ next)
    (counted : ∃ more, after.handed = more ++ s.handed ∧
      more.length + last.allowance ≤ phase.allowance) : after.Stopping handed closes next := by
  rcases stopping.daemon with ⟨before, earlier, found, _, handed_eq, allowed⟩
  have same := Option.some.inj (found.symm.trans running)
  subst same
  rcases counted with ⟨more, more_eq, fewer⟩
  refine ⟨alive, caller.trans stopping.joining, promise ▸ stopping.promise, last, more ++ earlier, daemon,
    nearer, ?_, ?_⟩
  · rw [more_eq, handed_eq, List.append_assoc]
  · rw [List.length_append]
    omega

/-- A step that is not one of the daemon. -/
theorem Stopping.keeps (stopping : s.Stopping handed closes distance) (alive : after.aborted = false)
    (caller : after.caller = s.caller) (promise : after.stopDaemon = s.stopDaemon)
    (daemon : after.daemon = s.daemon) (handed_eq : after.handed = s.handed) :
    after.Stopping handed closes distance := by
  rcases stopping.daemon with ⟨phase, more, found, far, rest⟩
  exact ⟨alive, caller.trans stopping.joining, promise ▸ stopping.promise, phase, more,
    daemon.trans found, far, handed_eq ▸ rest⟩

/-- Handling a message hands over one at most. -/
theorem handed_of_handle (s : Service) (errno : Errno) (links : Links) (reply : ModbusReply) (rc : ℤ) :
    ∃ more, (s.handle errno links reply rc).2.handed = more ++ s.handed ∧ more.length ≤ 1 := by
  simp only [handle]
  split
  · exact ⟨s.content.toList, rfl, by cases s.content <;> simp⟩
  · exact ⟨[], rfl, Nat.zero_le _⟩

/-- Until `terminate` returns, or an exception leaves the daemon, the daemon comes no further from its end. -/
theorem stopping_step (stopping : s.Stopping handed closes distance) (event : Event) :
    (s.step event).aborted = true ∨
      (event = .join ∧ s.daemon = some .finished ∧ s.step event = s.joined closes) ∨
      (s.step event).Stopping handed closes distance := by
  have move := step_move s event
  have alive := stopping.alive
  rcases stopping.daemon with ⟨phase, _, running, far, _⟩
  have goes : s.daemon ≠ none := by
    rw [running]
    exact Option.some_ne_none _
  generalize s.step event = after at move
  cases move with
  | none => exact .inr (.inr stopping)
  | opens links => exact .inr (.inr (stopping.keeps alive rfl rfl rfl rfl))
  | polls stopped => exact absurd stopped goes
  | expires polling => exact Caller.noConfusion (stopping.joining.symm.trans polling)
  | takes polling ready => exact Caller.noConfusion (stopping.joining.symm.trans polling)
  | starts idle stopped open_ first => exact absurd stopped goes
  | signals idle running => exact Caller.noConfusion (stopping.joining.symm.trans idle)
  | closes stopped => exact absurd stopped goes
  | joins joining finished =>
      have same := Caller.joining.inj (joining.symm.trans stopping.joining)
      subst same
      exact .inr (.inl ⟨rfl, finished, rfl⟩)
  | arrives message => exact .inr (.inr (stopping.keeps alive rfl rfl rfl rfl))
  | taskReceives receiving received =>
      rcases receive_frame received with ⟨_, _, _, rfl⟩
      exact .inr (.inr (stopping.keeps alive rfl rfl rfl rfl))
  | wakes waiting =>
      have satisfied := stopping.promise.2
      simp only [satisfied, if_true]
      exact .inr (.inr (stopping.goesOn waiting alive rfl rfl rfl (Nat.zero_le _) ⟨[], rfl, Nat.le_refl 0⟩))
  | daemonReceives receiving received =>
      have far' : Daemon.receiving.distance ≤ distance := by
        have same := Option.some.inj (running.symm.trans receiving)
        rwa [same] at far
      rcases receive_frame received with ⟨_, _, _, rfl⟩
      refine .inr (.inr (stopping.goesOn receiving alive rfl rfl rfl ?_ ⟨[], rfl, Nat.le_refl 1⟩))
      simp only [Daemon.distance] at far' ⊢
      omega
  | @handles rc errno links reply handling =>
      have far' : (Daemon.handling rc errno).distance ≤ distance := by
        have same := Option.some.inj (running.symm.trans handling)
        rwa [same] at far
      refine .inr (.inr (stopping.goesOn handling alive rfl rfl rfl ?_
        (handed_of_handle s errno links reply rc)))
      simp only [Daemon.distance] at far' ⊢
      omega
  | aborts handling => exact .inl rfl

/-- A daemon that is nearer to its end already. -/
theorem Stopping.nearer {next : ℕ} (stopping : s.Stopping handed closes distance)
    (near : ∀ phase, s.daemon = some phase → phase.distance ≤ next) : s.Stopping handed closes next := by
  rcases stopping.daemon with ⟨phase, more, running, _, rest⟩
  exact ⟨stopping.alive, stopping.joining, stopping.promise, phase, more, running, near phase running, rest⟩

variable {reception : Reception} {links : Links} {reply : ModbusReply}

theorem stopping_receives (stopping : s.Stopping handed closes 3) (returns : s.Returns reception) :
    (s.step (.daemonReceive reception)).Stopping handed closes 2 := by
  by_cases receiving : s.daemon = some .receiving
  · rcases Option.ne_none_iff_exists'.mp (returns receiving) with ⟨⟨rc, received⟩, received_eq⟩
    have run : s.step (.daemonReceive reception) =
        { received with daemon := some (.handling rc reception.errno) } := by
      simp only [step, stopping.alive, Bool.false_eq_true, if_false, daemonReceive, receiving, received_eq]
    rcases receive_frame received_eq with ⟨_, _, _, rfl⟩
    rw [run]
    exact stopping.goesOn receiving stopping.alive rfl rfl rfl (Nat.le_refl 2) ⟨[], rfl, Nat.le_refl 1⟩
  · have stays : s.step (.daemonReceive reception) = s := by
      simp only [step, stopping.alive, Bool.false_eq_true, if_false, daemonReceive]
      split
      · next phase _ => exact absurd phase receiving
      · rfl
    rw [stays]
    apply stopping.nearer
    intro phase running
    cases phase <;> simp_all [Daemon.distance]

theorem stopping_handles (stopping : s.Stopping handed closes 2) :
    (s.step (.daemonHandle links reply)).aborted = true ∨
      (s.step (.daemonHandle links reply)).Stopping handed closes 1 := by
  rcases stopping.daemon with ⟨phase, more, running, far, rest⟩
  cases phase with
  | receiving => simp [Daemon.distance] at far
  | handling rc errno =>
      have counted := handed_of_handle s errno links reply rc
      rcases handled : s.handle errno links reply rc with ⟨_ | result, last⟩
      · left
        simp only [step, stopping.alive, Bool.false_eq_true, if_false, daemonHandle, running, handled]
      · right
        have run : s.step (.daemonHandle links reply) =
            { (s.handle errno links reply rc).2 with daemon := some .waiting } := by
          simp only [step, stopping.alive, Bool.false_eq_true, if_false, daemonHandle, running, handled]
        rw [run]
        exact stopping.goesOn running stopping.alive rfl rfl rfl (Nat.le_refl 1) counted
  | waiting =>
      right
      have stays : s.step (.daemonHandle links reply) = s := by
        simp only [step, stopping.alive, Bool.false_eq_true, if_false, daemonHandle, running]
      rw [stays]
      exact ⟨stopping.alive, stopping.joining, stopping.promise, _, more, running, Nat.le_refl 1, rest⟩
  | finished =>
      right
      have stays : s.step (.daemonHandle links reply) = s := by
        simp only [step, stopping.alive, Bool.false_eq_true, if_false, daemonHandle, running]
      rw [stays]
      exact ⟨stopping.alive, stopping.joining, stopping.promise, _, more, running, Nat.zero_le 1, rest⟩

theorem stopping_wakes (stopping : s.Stopping handed closes 1) :
    (s.step .daemonWake).Stopping handed closes 0 := by
  rcases stopping.daemon with ⟨phase, more, running, far, rest⟩
  cases phase with
  | receiving => simp [Daemon.distance] at far
  | handling rc errno => simp [Daemon.distance] at far
  | waiting =>
      have run : s.step .daemonWake = { s with daemon := some .finished } := by
        simp only [step, stopping.alive, Bool.false_eq_true, if_false, daemonWake, running,
          stopping.promise.2, if_true]
      rw [run]
      exact stopping.goesOn running stopping.alive rfl rfl rfl (Nat.le_refl 0) ⟨[], rfl, Nat.le_refl 0⟩
  | finished =>
      have stays : s.step .daemonWake = s := by
        simp only [step, stopping.alive, Bool.false_eq_true, if_false, daemonWake, running]
      rw [stays]
      exact ⟨stopping.alive, stopping.joining, stopping.promise, _, more, running, Nat.le_refl 0, rest⟩

/-- The daemon has ended, so the wait is over. -/
theorem stopping_joins (stopping : s.Stopping handed closes 0) : s.step .join = s.joined closes := by
  rcases stopping.daemon with ⟨phase, _, running, far, _⟩
  cases phase with
  | receiving => simp [Daemon.distance] at far
  | handling rc errno => simp [Daemon.distance] at far
  | waiting => simp [Daemon.distance] at far
  | finished =>
      simp only [step, stopping.alive, Bool.false_eq_true, if_false, join, stopping.joining, running]

theorem closeDevice_isOpen (server : Server) : server.closeDevice.device.isOpen = false := by
  simp only [Server.closeDevice]
  split
  · rfl
  · next closed => exact Bool.eq_false_iff.mpr closed

theorem Stopping.joined_spec (stopping : s.Stopping handed closes distance) :
    (s.joined closes).caller = .idle ∧ (s.joined closes).Stopped ∧
      (closes = true → (s.joined closes).isOpen = false) ∧
      (s.joined closes).handed = s.handed := by
  have retrieved := stopping.promise.1
  cases closes with
  | false => exact ⟨rfl, ⟨rfl, retrieved⟩, Bool.noConfusion, rfl⟩
  | true => exact ⟨rfl, ⟨rfl, retrieved⟩, fun _ => closeDevice_isOpen s.server, rfl⟩

/-- No daemon runs after the only one. -/
theorem stopped_step (stopped : s.Stopped) (event : Event) : (s.step event).Stopped := by
  have retrieved := (retrieved_step s event).mpr (.inl stopped.retrieved)
  refine ⟨?_, retrieved⟩
  have move := step_move s event
  have daemon := stopped.daemon
  generalize s.step event = after at move
  cases move with
  | starts idle none_runs open_ first =>
      rw [stopped.retrieved] at first
      cases first
  | taskReceives receiving received =>
      rcases receive_frame received with ⟨_, _, _, rfl⟩
      exact daemon
  | wakes running => exact absurd (daemon.symm.trans running) (by simp)
  | daemonReceives running received => exact absurd (daemon.symm.trans running) (by simp)
  | handles running => exact absurd (daemon.symm.trans running) (by simp)
  | aborts running => exact absurd (daemon.symm.trans running) (by simp)
  | joins joining running => exact absurd (daemon.symm.trans running) (by simp)
  | _ => exact daemon

theorem stopped_along (stopped : s.Stopped) (events : List Event) : (events.foldl step s).Stopped := by
  induction events generalizing s with
  | nil => exact stopped
  | cons event events ih => exact ih (stopped_step stopped event)

theorem Returned.cons {run : List Event} (returned : Returned handed closes (s.step event) run) :
    Returned handed closes s (event :: run) := by
  rcases returned with ⟨before, rest, ended, rfl, ran, spec⟩
  exact ⟨event :: before, rest, ended, rfl, ran, spec⟩

theorem Returned.append_left {early run : List Event}
    (returned : Returned handed closes (early.foldl step s) run) :
    Returned handed closes s (early ++ run) := by
  induction early generalizing s with
  | nil => exact returned
  | cons event early ih => exact (ih returned).cons

/-- Nothing that follows starts a daemon again. -/
theorem Returned.append_right {run : List Event} (returned : Returned handed closes s run)
    (later : List Event) : Returned handed closes s (run ++ later) := by
  rcases returned with ⟨before, rest, ended, rfl, ran, idle, stopped, closed, handed_eq, _⟩
  refine ⟨before, rest ++ later, ended, ?_, ran, idle, stopped, closed, handed_eq, ?_⟩
  · rw [List.append_assoc, List.cons_append]
  · exact stopped_along stopped (rest ++ later)

/-- The wait is over in the first step of a run. -/
theorem Stopping.returned (stopping : s.Stopping handed closes distance)
    (ends : s.step .join = s.joined closes) (run : List Event) :
    Returned handed closes s (.join :: run) := by
  rcases stopping.joined_spec with ⟨idle, stopped, closed, handed_eq⟩
  rcases stopping.daemon with ⟨_, more, _, _, before, allowed⟩
  exact ⟨[], run, s.joined closes, rfl, ends, idle, stopped, closed,
    ⟨more, handed_eq.trans before, by omega⟩, stopped_along stopped run⟩

theorem stopping_along (stopping : s.Stopping handed closes distance) (run : List Event) :
    (run.foldl step s).aborted = true ∨ Returned handed closes s run ∨
      (run.foldl step s).Stopping handed closes distance := by
  induction run generalizing s with
  | nil => exact .inr (.inr stopping)
  | cons event run ih =>
      rcases stopping_step stopping event with aborted | ⟨rfl, _, ends⟩ | goes
      · refine .inl ?_
        rw [List.foldl_cons, aborted_along aborted]
        exact aborted
      · exact .inr (.inl (stopping.returned ends run))
      · rcases ih goes with aborted | returned | waits
        · exact .inl aborted
        · exact .inr (.inl returned.cons)
        · exact .inr (.inr waits)

/-- A run in which the daemon makes the steps that are left, whatever else happens between them. -/
theorem stopping_ends (stopping : s.Stopping handed closes distance) (few : distance ≤ 2)
    {run : List Event} (steps : ((ending links reply).drop (2 - distance)).Sublist run) :
    (run.foldl step s).aborted = true ∨ Returned handed closes s run := by
  induction run generalizing s distance with
  | nil =>
      have none_left := List.sublist_nil.mp steps
      rw [List.drop_eq_nil_iff] at none_left
      simp only [ending, List.length_cons, List.length_nil] at none_left
      omega
  | cons event run ih =>
      have ended : (s.step event).aborted = true → ((event :: run).foldl step s).aborted = true := by
        intro aborted
        rw [List.foldl_cons, aborted_along aborted]
        exact aborted
      -- Each of the steps that are left brings the daemon nearer to its end, the others take it no further.
      have other : ∀ {next : ℕ}, next ≤ 2 → (s.step event).Stopping handed closes next →
          ((ending links reply).drop (2 - next)).Sublist run →
            ((event :: run).foldl step s).aborted = true ∨ Returned handed closes s (event :: run) := by
        intro next near goes later
        rcases ih goes near later with aborted | returned
        · exact .inl aborted
        · exact .inr returned.cons
      rcases List.sublist_cons_iff.mp steps with later | ⟨tail, steps_eq, later⟩
      · rcases stopping_step stopping event with aborted | ⟨rfl, _, ends⟩ | goes
        · exact .inl (ended aborted)
        · exact .inr (stopping.returned ends run)
        · exact other few goes later
      · have cases_eq : distance = 2 ∨ distance = 1 ∨ distance = 0 := by omega
        rcases cases_eq with rfl | rfl | rfl <;>
          simp only [ending, Nat.sub_self, Nat.sub_zero, Nat.reduceSub, List.drop_zero, List.drop_succ_cons,
            List.cons.injEq] at steps_eq <;> rcases steps_eq with ⟨rfl, rfl⟩
        · rcases stopping_handles stopping with aborted | goes
          · exact .inl (ended aborted)
          · exact other (by omega) goes later
        · exact other (by omega) (stopping_wakes stopping) later
        · exact .inr (stopping.returned (stopping_joins stopping) run)

/-- The daemon comes to its end once `receive` has returned, whatever precedes this. -/
theorem stopping_ends_of_returns (stopping : s.Stopping handed closes 3) {early late : List Event}
    (returns : (early.foldl step s).Returns reception) (steps : (ending links reply).Sublist late) :
    ((early ++ .daemonReceive reception :: late).foldl step s).aborted = true ∨
      Returned handed closes s (early ++ .daemonReceive reception :: late) := by
  rw [List.foldl_append]
  rcases stopping_along stopping early with aborted | returned | waits
  · refine .inl ?_
    rw [aborted_along aborted]
    exact aborted
  · exact .inr (returned.append_right _)
  · rcases stopping_ends (stopping_receives waits returns) (Nat.le_refl 2) steps with aborted | returned
    · exact .inl aborted
    · exact .inr (Returned.append_left returned.cons)

/-- From every state that a run reaches in which the program waits in `terminate`: until that returns, the
daemon hands over one more message at most, and it does return once `receive` has, with a message or without,
unless an exception leaves the daemon. No daemon runs afterwards. -/
theorem stopped_of_run (server : Server) (events : List Event)
    (alive : (events.foldl step (create server)).aborted = false)
    (joining : (events.foldl step (create server)).caller = .joining closes) (run : List Event) :
    ∃ before after, events.foldl step (create server) = before ∧ run.foldl step before = after ∧
      (after.aborted = true ∨ Returned before.handed closes before run ∨
        after.Stopping before.handed closes 3) ∧
      ∀ reception links reply early late, run = early ++ .daemonReceive reception :: late →
        (early.foldl step before).Returns reception → (ending links reply).Sublist late →
          after.aborted = true ∨ Returned before.handed closes before run := by
  have stopping := (told_of_run server events).stopping alive joining
  refine ⟨_, _, rfl, rfl, stopping_along stopping run, ?_⟩
  rintro reception links reply early late rfl returns steps
  exact stopping_ends_of_returns stopping returns steps

/-- A message arrives while the program waits in `close`, which is what the daemon receives. -/
theorem stopped_of_run_onLine : ∃ req,
    Message.create (.net .rtu) (.adu [2, 3, 0, 0, 0, 1, 0x84, 0x39]) = .ok req ∧
      ∀ message : Incoming, message = { req, rc := 8, positive := by decide } →
        Returned [] true ([.open connected, .run, .daemonWake, .close].foldl step (create onLine))
          [.arrive message, .daemonReceive .message, .daemonHandle connected .singleRegister, .daemonWake,
            .join, .poll] := by
  refine ⟨_, rfl, ?_⟩
  intro message _
  have joining : ([.open connected, .run, .daemonWake, .close].foldl step (create onLine)).caller =
      .joining true := rfl
  rcases stopped_of_run onLine [.open connected, .run, .daemonWake, .close] rfl joining
    [.arrive message, .daemonReceive .message, .daemonHandle connected .singleRegister, .daemonWake,
      .join, .poll] with
    ⟨before, after, rfl, ran, _, ends⟩
  have returns : ([.arrive message].foldl step
      ([.open connected, .run, .daemonWake, .close].foldl step (create onLine))).Returns .message := by
    intro _ contrary
    cases contrary
  have steps := List.sublist_append_left (ending connected .singleRegister) [.poll]
  rcases ends .message connected .singleRegister [.arrive message] _ rfl returns steps with
    aborted | returned
  · subst_vars
    cases aborted
  · exact returned

end Service

end Modbuspp
