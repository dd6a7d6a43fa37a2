import SerialLock.Proofs.Status.Decision

/-!
# A checker over time

Processes start, are killed and are collected, and in between one checker is asked about them again
and again.  It keeps a view of the process table that is brought up to date for one process at a
time, so most of the view may be out of date (`Machine.hostBy`, where nothing is known of the view
but what `ProcessTable.Renews` says).  Its answers do not show this: each is what a checker without
any view would answer at that moment, and follows from what happened to the process asked about
(`checks_as_afresh`).
-/

set_option autoImplicit false

namespace SerialLock

/-- What happens to processes, and what a checker is asked meanwhile. -/
inductive Event where
  | spawn (number : Nat)
  | kill (number : Nat)
  | reap (number : Nat)
  | check (pid : Int)
  deriving DecidableEq, Repr

namespace Event

/-- What the event asks about. -/
def pid? : Event → Option Int
  | .check pid => some pid
  | _ => none

end Event

namespace ProcessTable

/-- The table after an event. -/
def after (table : ProcessTable) : Event → ProcessTable
  | .spawn number => table.spawn number
  | .kill number => table.kill number
  | .reap number => table.reap number
  | .check _ => table

/-- The table after several events, one after the other. -/
def afterAll (table : ProcessTable) (events : List Event) : ProcessTable :=
  events.foldl after table

/-- The events leave the process running: it was started, or was running before them, and was not
killed since. -/
def RunsAfter (table : ProcessTable) (events : List Event) (number : Nat) : Prop :=
  (∃ front back, events = front ++ .spawn number :: back ∧ .kill number ∉ back) ∨
    (table.lookup number = some .running ∧ .kill number ∉ events)

/-- Bringing a view of the table up to date for one process makes the view's entry of that process
the table's, where there is one, and leaves the entries of the others as they are. -/
structure Renews (renew : ProcessTable → ProcessTable → Nat → ProcessTable) : Prop where
  asked : ∀ (view table : ProcessTable) (number : Nat),
    (renew view table number).lookup number = table.lookup number
  others : ∀ (view table : ProcessTable) (number other : Nat), other ≠ number →
    (renew view table number).lookup other = view.lookup other

variable {table : ProcessTable} {number : Nat} {event : Event} {events : List Event}

/-! ## What events do to processes -/

/-- A process that is put into a table is found there in its state, and the others as before. -/
theorem lookup_put (table : ProcessTable) (number other : Nat) (state : ProcessState) :
    (table.put number state).lookup other =
      if other = number then some state else table.lookup other := by
  unfold put
  rw [List.lookup_cons]
  by_cases hsame : other = number
  · simp [hsame]
  · have hne : (other == number) = false := by simpa using hsame
    simp only [hne, hsame, if_false]
    rw [lookup_filter_ne, hne]
    simp

/-- A process that is dropped from a table is not found there, and the others are as before. -/
theorem lookup_drop (table : ProcessTable) (number other : Nat) :
    (table.drop number).lookup other = if other = number then none else table.lookup other := by
  unfold drop
  rw [lookup_filter_ne]
  simp

/-- The view is one that can be kept like this. -/
theorem renews_refresh : Renews refresh where
  asked := lookup_refresh
  others := by
    intro view table number other hother
    unfold refresh
    cases table.lookup number with
    | some state => rw [lookup_put, if_neg hother]
    | none => rw [lookup_drop, if_neg hother]

/-- A process that starts is running. -/
theorem lookup_spawn (table : ProcessTable) (number other : Nat) :
    (table.spawn number).lookup other =
      if other = number then some .running else table.lookup other :=
  lookup_put table number other .running

/-- A process that is killed is a zombie, if it was there. -/
theorem lookup_kill (table : ProcessTable) (number other : Nat) :
    (table.kill number).lookup other =
      if other = number then (table.lookup number).map fun _ => .zombie
      else table.lookup other := by
  unfold kill
  cases hkilled : table.lookup number with
  | some state => exact lookup_put table number other .zombie
  | none =>
      by_cases hsame : other = number
      · rw [if_pos hsame, hsame, hkilled]
        rfl
      · rw [if_neg hsame]

/-- A process that is collected is gone if it was a zombie, and stays as it is else. -/
theorem lookup_reap (table : ProcessTable) (number other : Nat) :
    (table.reap number).lookup other =
      if other = number ∧ table.lookup number = some .zombie then none else table.lookup other := by
  unfold reap
  split
  · rename_i hzombie
    rw [lookup_drop]
    simp [hzombie]
  · rename_i hother
    rw [if_neg]
    rintro ⟨-, hzombie⟩
    exact hother hzombie

/-- An event leaves a process running if it starts the process, or finds it running and does not
kill it. -/
theorem lookup_after_iff :
    (table.after event).lookup number = some .running ↔
      event = .spawn number ∨ (table.lookup number = some .running ∧ event ≠ .kill number) := by
  cases event with
  | check pid => simp [after]
  | spawn started =>
      rw [after, lookup_spawn]
      by_cases hsame : number = started
      · simp [hsame]
      · simp [hsame, Ne.symm hsame]
  | kill killed =>
      rw [after, lookup_kill]
      by_cases hsame : number = killed
      · simp [hsame]
      · simp [hsame, Ne.symm hsame]
  | reap collected =>
      rw [after, lookup_reap]
      by_cases hzombie : number = collected ∧ table.lookup collected = some .zombie
      · simp [hzombie]
      · simp [hzombie]

/-- What runs after several events runs after the others from the table that the first leaves. -/
theorem runsAfter_cons_iff :
    table.RunsAfter (event :: events) number ↔ (table.after event).RunsAfter events number := by
  unfold RunsAfter
  rw [lookup_after_iff]
  constructor
  · rintro (⟨front, back, hevents, hback⟩ | ⟨hruns, hevents⟩)
    · cases front with
      | nil =>
          obtain ⟨rfl, rfl⟩ := List.cons.inj hevents
          exact .inr ⟨.inl rfl, hback⟩
      | cons first front =>
          obtain ⟨rfl, rfl⟩ := List.cons.inj hevents
          exact .inl ⟨front, back, rfl, hback⟩
    · rw [List.mem_cons, not_or] at hevents
      exact .inr ⟨.inr ⟨hruns, Ne.symm hevents.1⟩, hevents.2⟩
  · rintro (⟨front, back, rfl, hback⟩ | ⟨rfl | ⟨hruns, hevent⟩, hevents⟩)
    · exact .inl ⟨event :: front, back, rfl, hback⟩
    · exact .inl ⟨[], events, rfl, hevents⟩
    · refine .inr ⟨hruns, ?_⟩
      rw [List.mem_cons, not_or]
      exact ⟨Ne.symm hevent, hevents⟩

/-- After events, the processes that the table shows as running are those that the events leave
running. -/
theorem lookup_afterAll_iff :
    (table.afterAll events).lookup number = some .running ↔ table.RunsAfter events number := by
  induction events generalizing table with
  | nil => simp [afterAll, RunsAfter]
  | cons event events ih =>
      rw [runsAfter_cons_iff, ← ih]
      rfl

end ProcessTable

/-- The operations of a machine whose view of the process table is brought up to date by `renew`. -/
@[reducible] def Machine.hostBy (renew : ProcessTable → ProcessTable → Nat → ProcessTable) :
    Host Simulation :=
  { (inferInstance : Host Simulation) with
    refresh := fun number => modify fun machine =>
      { machine with view := renew machine.view machine.processes number } }

example : Machine.hostBy ProcessTable.refresh = (inferInstance : Host Simulation) :=
  rfl

namespace Checker

section

variable (renew : ProcessTable → ProcessTable → Nat → ProcessTable)

/-- The checker that the settings ask for, on a machine whose view is kept by `renew`. -/
def made (checkLiveness : Bool) : Simulation (Checker Simulation) :=
  @chosen Simulation _ (Machine.hostBy renew) checkLiveness

/-- What happens on the machine, with the checker's answer where the event asks it. -/
def meet (checker : Checker Simulation) (event : Event) : Simulation (Option Liveness) := do
  modify fun machine => { machine with processes := machine.processes.after event }
  match event with
  | .check pid => return some (← checker pid)
  | _ => return none

/-- The answers over several events of one checker, made before the first of them. -/
def watch (checkLiveness : Bool) (events : List Event) : Simulation (List (Option Liveness)) := do
  let checker ← made renew checkLiveness
  events.mapM (meet checker)

/-- The answer of a checker that is made for a single question. -/
def afresh (checkLiveness : Bool) (pid : Int) : Simulation Liveness := do
  modify fun machine => { machine with view := [] }
  let checker ← made renew checkLiveness
  checker pid

end

variable {renew : ProcessTable → ProcessTable → Nat → ProcessTable} {checkLiveness : Bool}
  {checker : Checker Simulation}

/-- Two views show the same of all processes but the one asked about, which is looked up if the
settings ask for it and the system can have such a process. -/
def Looks (checkLiveness : Bool) (pid : Int) (view seen : ProcessTable) : Prop :=
  ∀ number : Nat, seen.lookup number = view.lookup number ∨
    (checkLiveness = true ∧ pid = number ∧ 0 < number ∧ number < 0x100000000)

/-- Whatever its view, the checker answers by the rule for the processes as they are. -/
def Truthful (checkLiveness : Bool) (checker : Checker Simulation) : Prop :=
  ∀ (machine : Machine) (pid : Int), ∃ after,
    (checker pid).run machine = (ruleOf checkLiveness machine.processes pid, after) ∧
      after.processes = machine.processes ∧ Looks checkLiveness pid machine.view after.view

/-! ## One check -/

/-- Where owners are not looked up, to know nothing is the rule. -/
theorem truthful_unavailable : Truthful false unavailable := by
  intro machine pid
  exact ⟨machine, rfl, rfl, fun _ => .inl rfl⟩

/-- A process is looked up at the moment it is asked about, so the view shows what is the case. -/
theorem truthful_ofProcesses (hrenews : ProcessTable.Renews renew) :
    Truthful true (@ofProcesses Simulation _ (Machine.hostBy renew)) := by
  intro machine pid
  have hrule : ruleOf true machine.processes pid = truth machine.processes pid := rfl
  rw [hrule]
  unfold ofProcesses truth
  cases hnumber : processNumber? pid with
  | none => exact ⟨machine, rfl, rfl, fun _ => .inl rfl⟩
  | some number =>
      have hshows : (renew machine.view machine.processes number).shows number =
          machine.processes.shows number := by
        unfold ProcessTable.shows
        rw [hrenews.asked]
      simp only
      rw [← hshows]
      refine ⟨_, rfl, rfl, ?_⟩
      intro other
      by_cases hsame : other = number
      · right
        obtain ⟨hpid, hnumber⟩ : (0 < pid ∧ pid < 0x100000000) ∧ pid.toNat = number := by
          simpa [processNumber?] using hnumber
        exact ⟨rfl, by omega, by omega, by omega⟩
      · left
        exact hrenews.others machine.view machine.processes number other hsame

/-- The checker that the settings ask for answers by the rule, and making it changes neither
processes nor the view of them. -/
theorem run_made (hrenews : ProcessTable.Renews renew) (machine : Machine) (checkLiveness : Bool) :
    ∃ checker after, (made renew checkLiveness).run machine = (checker, after) ∧
      after.processes = machine.processes ∧ after.view = machine.view ∧
      Truthful checkLiveness checker := by
  cases checkLiveness with
  | true => exact ⟨_, _, rfl, rfl, rfl, truthful_ofProcesses hrenews⟩
  | false => exact ⟨_, _, rfl, rfl, rfl, truthful_unavailable⟩

/-- A checker that is made for a single question answers by the rule. -/
theorem run_afresh (hrenews : ProcessTable.Renews renew) (machine : Machine) (pid : Int) :
    ((afresh renew checkLiveness pid).run machine).1 =
      ruleOf checkLiveness machine.processes pid := by
  obtain ⟨checker, start, hmade, hprocesses, -, htruthful⟩ :=
    run_made hrenews { machine with view := [] } checkLiveness
  obtain ⟨after, hcheck, -, -⟩ := htruthful start pid
  have hrun : (afresh renew checkLiveness pid).run machine = (checker pid).run start := by
    unfold afresh
    rw [StateT.run_bind]
    exact congrArg (fun made => (made.1 pid).run made.2) hmade
  rw [hrun, hcheck, hprocesses]

/-! ## Several events -/

/-- What a checker that follows a rule answers over several events. -/
def answersBy (rule : ProcessTable → Int → Liveness) (table : ProcessTable) :
    List Event → List (Option Liveness)
  | [] => []
  | event :: rest =>
    event.pid?.map (rule (table.after event)) :: answersBy rule (table.after event) rest

/-- At the place of a check stands the answer by the rule for the processes at that moment. -/
theorem answersBy_check (rule : ProcessTable → Int → Liveness) (table : ProcessTable)
    (before after : List Event) (pid : Int) :
    (answersBy rule table (before ++ .check pid :: after))[before.length]? =
      some (some (rule (table.afterAll before) pid)) := by
  induction before generalizing table with
  | nil => rfl
  | cons event before ih => exact ih (table.after event)

/-- An event changes the processes as it says, a check is answered by the rule for them as they are
then, and the view changes for the process asked about alone. -/
theorem run_meet (htruthful : Truthful checkLiveness checker) (machine : Machine) (event : Event) :
    ∃ after, (meet checker event).run machine =
        (event.pid?.map (ruleOf checkLiveness (machine.processes.after event)), after) ∧
      after.processes = machine.processes.after event ∧
      ∀ number, after.view.lookup number = machine.view.lookup number ∨
        (checkLiveness = true ∧ event = .check number ∧ 0 < number ∧ number < 0x100000000) := by
  cases event with
  | check pid =>
      obtain ⟨after, hcheck, hprocesses, hlooks⟩ := htruthful machine pid
      refine ⟨after, ?_, hprocesses, ?_⟩
      · have hrun : (meet checker (.check pid)).run machine =
            (some ((checker pid).run machine).1, ((checker pid).run machine).2) := rfl
        rw [hrun, hcheck]
        rfl
      · intro number
        simpa using hlooks number
  | _ => exact ⟨_, rfl, rfl, fun _ => .inl rfl⟩

/-- Over several events the checker keeps answering by the rule, and looks up no process but those
that it is asked about. -/
theorem run_meetAll (htruthful : Truthful checkLiveness checker) (machine : Machine)
    (events : List Event) :
    ∃ after, (events.mapM (meet checker)).run machine =
        (answersBy (ruleOf checkLiveness) machine.processes events, after) ∧
      after.processes = machine.processes.afterAll events ∧
      ∀ number, after.view.lookup number = machine.view.lookup number ∨
        (checkLiveness = true ∧ .check number ∈ events ∧ 0 < number ∧
          number < 0x100000000) := by
  induction events generalizing machine with
  | nil => exact ⟨machine, rfl, rfl, fun _ => .inl rfl⟩
  | cons event events ih =>
      -- the machine after the first event, processes and view, is where the others start
      obtain ⟨middle, hmeet, hprocesses, hlooks⟩ := run_meet htruthful machine event
      obtain ⟨after, hrest, hprocesses', hlooks'⟩ := ih middle
      refine ⟨after, ?_, ?_, ?_⟩
      · have hrun : ((event :: events).mapM (meet checker)).run machine =
            (let (answer, middle) := (meet checker event).run machine
              let (answers, after) := (events.mapM (meet checker)).run middle
              (answer :: answers, after)) := by
          rw [List.mapM_cons]
          rfl
        rw [hrun, hmeet]
        simp only
        rw [hrest, hprocesses]
        rfl
      · rw [hprocesses', hprocesses]
        rfl
      · intro number
        rcases hlooks' number with hsame' | ⟨hlooked, hmem, hbounds⟩
        · rcases hlooks number with hsame | ⟨hlooked, rfl, hbounds⟩
          · exact .inl (hsame'.trans hsame)
          · exact .inr ⟨hlooked, List.mem_cons_self, hbounds⟩
        · exact .inr ⟨hlooked, List.mem_cons_of_mem event hmem, hbounds⟩

/-- One checker watches events.  Its answer to each check is the one of a checker that is made for
this question alone, on the machine as it is at that moment.  Where liveness is not checked it is
"unknown" throughout.  Otherwise it is "alive" exactly where the number asked about is one that a
process can have, and the events so far leave that very process running: from its start up to the
moment when it is killed, whether or not it has been collected since; and "dead" else.  No process
is looked up but those asked about, and for a number that no process can have none is, on any
system. -/
theorem checks_as_afresh (hrenews : ProcessTable.Renews renew) (machine : Machine)
    (checkLiveness : Bool) :
    (∀ (before after : List Event) (pid : Int),
      let reached := ((watch renew checkLiveness before).run machine).2
      let answers := ((watch renew checkLiveness (before ++ .check pid :: after)).run machine).1
      ∃ answer, answers[before.length]? = some (some answer) ∧
        ((afresh renew checkLiveness pid).run reached).1 = answer ∧
        (answer = .unknown ↔ checkLiveness = false) ∧
        (answer = .alive ↔ checkLiveness = true ∧ ∃ number : Nat, pid = number ∧ 0 < number ∧
          number < 0x100000000 ∧ machine.processes.RunsAfter before number)) ∧
    (∀ (events : List Event) (number : Nat),
      let reached := ((watch renew checkLiveness events).run machine).2
      reached.view.lookup number = machine.view.lookup number ∨
        (checkLiveness = true ∧ .check number ∈ events ∧ 0 < number ∧ number < 0x100000000)) ∧
    (∀ (m : Type → Type) [Monad m] [Host m] (pid : Int), pid < 1 ∨ 0xFFFFFFFF < pid →
      (ofProcesses pid : m Liveness) = pure .dead) := by
  obtain ⟨checker, start, hmade, hprocesses, hview, htruthful⟩ :=
    run_made hrenews machine checkLiveness
  have hwatch (events : List Event) : (watch renew checkLiveness events).run machine =
      (events.mapM (meet checker)).run start := by
    unfold watch
    rw [StateT.run_bind]
    exact congrArg (fun made => (events.mapM (meet made.1)).run made.2) hmade
  refine ⟨?_, ?_, ?_⟩
  · intro before after pid reached answers
    obtain ⟨last, hbefore, hreached, -⟩ := run_meetAll htruthful start before
    obtain ⟨_, hall, -, -⟩ :=
      run_meetAll htruthful start (before ++ .check pid :: after)
    let table := machine.processes.afterAll before
    have hprocesses' : reached.processes = table := by
      simp only [reached, hwatch, hbefore, hreached, hprocesses, table]
    refine ⟨ruleOf checkLiveness table pid, ?_, ?_, ?_, ?_⟩
    · simp only [answers, hwatch, hall, hprocesses]
      exact answersBy_check (ruleOf checkLiveness) machine.processes before after pid
    · rw [run_afresh hrenews, hprocesses']
    · cases checkLiveness with
      | true => simp [ruleOf, truth_ne_unknown]
      | false => simp [ruleOf]
    · cases checkLiveness with
      | false => simp [ruleOf]
      -- what the table holds is what the events leave running, which is the history that is told
      | true =>
          have halive := @truth_eq_alive_iff table pid
          simp only [ruleOf, if_true, true_and]
          rw [halive]
          constructor
          · rintro ⟨hlow, hhigh, number, hruns, rfl⟩
            exact ⟨number, rfl, by omega, by omega, ProcessTable.lookup_afterAll_iff.mp hruns⟩
          · rintro ⟨number, rfl, hlow, hhigh, hruns⟩
            exact ⟨by omega, by omega, number, ProcessTable.lookup_afterAll_iff.mpr hruns, rfl⟩
  · intro events number reached
    obtain ⟨last, hrun, -, hlooks⟩ := run_meetAll htruthful start events
    simp only [reached, hwatch, hrun, ← hview]
    exact hlooks number
  · intro m _ _ pid hpid
    have hnone : processNumber? pid = none := by
      unfold processNumber?
      rw [if_neg]
      omega
    unfold ofProcesses
    rw [hnone]

/-- A machine with no files and a single process. -/
def lonelyMachine : Machine :=
  { files := ⟨[], [], []⟩, processes := [(1, .running)] }

/-- A process is started, killed and collected, and is asked about in between, also by a number that
has it as its remainder. -/
theorem checks_as_afresh_killed :
    let before : List Event := [.spawn 5, .check 5, .check 1, .kill 5, .check 0x100000005]
    let after : List Event := [.reap 5, .check 5, .spawn 5, .check 5]
    let reached := ((watch ProcessTable.refresh true before).run lonelyMachine).2
    let answers := ((watch ProcessTable.refresh true (before ++ .check 5 :: after)).run
      lonelyMachine).1
    ProcessTable.Renews ProcessTable.refresh ∧
      answers = [none, some .alive, some .alive, none, some .dead, some .dead, none, some .dead,
        none, some .alive] ∧
      (∃ answer, answers[5]? = some (some answer) ∧
        ((afresh ProcessTable.refresh true 5).run reached).1 = answer ∧ answer ≠ .alive) ∧
      reached.view.lookup 6 = lonelyMachine.view.lookup 6 ∧
      (ofProcesses 0x100000005 : Simulation Liveness) = pure .dead := by
  intro before after reached answers
  obtain ⟨hanswers, hlooks, hnone⟩ :=
    checks_as_afresh ProcessTable.renews_refresh lonelyMachine true
  obtain ⟨answer, hanswer, hafresh, -, -⟩ := hanswers before after 5
  refine ⟨ProcessTable.renews_refresh, rfl, ⟨answer, hanswer, hafresh, ?_⟩, ?_,
    hnone Simulation 0x100000005 (by omega)⟩
  · rw [← hafresh]
    decide
  · rcases hlooks before 6 with hsame | ⟨-, hmem, -⟩
    · exact hsame
    · simp [before] at hmem

end Checker

end SerialLock
