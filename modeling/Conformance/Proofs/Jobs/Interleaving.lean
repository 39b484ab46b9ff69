import Conformance.Proofs.Engine.Memory
import Conformance.Proofs.Jobs.Basic
import Conformance.Proofs.Schema.Validation
import Mathlib.Data.List.Count
import Mathlib.Data.List.Induction
import Mathlib.Logic.Function.Basic

/-!
# Jobs on several threads at once

Any number of threads, each with jobs of its own, act in any order. They share one memory, in which
every collector has its place; a thread reaches a collector through the place in its handler or in
the context of a call, whoever the collector belongs to. The handler and the resolution are kept
for each thread.

* `Worker` : a thread's jobs, the one in hand and the replies so far, with one action at a time;
* `Pool`, `Pool.act` : the memory with what is kept for each thread, and an action of one of them;
* `Interleaving` : the actions of all threads in some order;
* `InStep` : every thread is where as many actions take it when it is alone, kept by every action
  (`InStep.act`);
* `alone_of_interleaving` : so it does and finds whatever it does and finds alone.
-/

namespace Conformance

variable {E : Engine}

/-! ## Workers -/

/-- The jobs of a thread: those done, with their replies, the one in hand and those to come. -/
structure Worker (E : Engine) where
  replies : List (Reply E)
  current : Option (Session E (Reply E))
  waiting : List (Job E)

namespace Worker

/-- A thread with all its jobs to come. -/
def start (jobs : List (Job E)) : Worker E :=
  ⟨[], none, jobs⟩

/-- All jobs are done. -/
structure Finished (worker : Worker E) : Prop where
  current : worker.current = none
  waiting : worker.waiting = []

/-- Takes up the next job, performs an action of the one in hand, or takes its reply. -/
def step (worker : Worker E) (thread : Thread E) : Worker E × Thread E :=
  match worker.current, worker.waiting with
  | none, [] => (worker, thread)
  | none, job :: waiting => (⟨worker.replies, some job.session, waiting⟩, thread)
  | some (.done reply), waiting => (⟨worker.replies ++ [reply], none, waiting⟩, thread)
  | some session, waiting =>
    (⟨worker.replies, some (session.step thread).1, waiting⟩, (session.step thread).2)

/-- The worker and the thread after so many actions. -/
def steps (worker : Worker E) (thread : Thread E) : Nat → Worker E × Thread E
  | 0 => (worker, thread)
  | count + 1 => ((worker.steps thread count).1).step (worker.steps thread count).2

/-- What is left to do. -/
def rest (worker : Worker E) : Session E (List (Reply E)) :=
  match worker.current with
  | none => Job.sessions worker.waiting
  | some session =>
    session.bind fun reply =>
      (Job.sessions worker.waiting).bind fun replies => .done (reply :: replies)

/-- The replies had and to come are the same after an action. -/
theorem run_step (worker : Worker E) (thread : Thread E) :
    (worker.step thread).1.replies ++ ((worker.step thread).1.rest.run (worker.step thread).2).1 =
      worker.replies ++ (worker.rest.run thread).1 := by
  obtain ⟨replies, current, waiting⟩ := worker
  cases current with
  | none => cases waiting <;> rfl
  | some session =>
      have hsession : ∀ after : Reply E → Session E (List (Reply E)),
          (((session.step thread).1).bind after).run (session.step thread).2 =
            (session.bind after).run thread := by
        intro after
        rw [Session.run_bind, Session.run_bind, Session.run_step]
      cases session with
      | done reply =>
          simp only [step, rest, Session.bind, Session.run_bind, Session.run,
            List.append_assoc, List.singleton_append]
      | _ => exact congrArg (fun after => replies ++ after.1) (hsession _)

theorem run_steps (worker : Worker E) (thread : Thread E) (count : Nat) :
    (worker.steps thread count).1.replies ++
        ((worker.steps thread count).1.rest.run (worker.steps thread count).2).1 =
      worker.replies ++ (worker.rest.run thread).1 := by
  induction count with
  | zero => rfl
  | succ count ih => exact (run_step _ _).trans ih

theorem Finished.rest {worker : Worker E} (h : worker.Finished) : worker.rest = .done [] := by
  rw [Worker.rest, h.current, h.waiting]
  rfl

/-! ### Coming to an end -/

theorem Finished.step {worker : Worker E} (h : worker.Finished) (thread : Thread E) :
    worker.step thread = (worker, thread) := by
  obtain ⟨replies, current, waiting⟩ := worker
  obtain ⟨rfl, rfl⟩ := h
  rfl

theorem finished_of_le {worker : Worker E} {thread : Thread E} {count count' : Nat}
    (h : (worker.steps thread count).1.Finished) (hle : count ≤ count') :
    (worker.steps thread count').1.Finished := by
  induction hle with
  | refl => exact h
  | step _ ih =>
      rw [steps, ih.step]
      exact ih

theorem steps_step (worker : Worker E) (thread : Thread E) (count : Nat) :
    (worker.step thread).1.steps (worker.step thread).2 count =
      worker.steps thread (count + 1) := by
  induction count with
  | zero => rfl
  | succ count ih =>
      rw [steps, ih]
      rfl

theorem exists_finished_of_step {worker : Worker E} {thread : Thread E}
    (h : ∃ count, ((worker.step thread).1.steps (worker.step thread).2 count).1.Finished) :
    ∃ count, (worker.steps thread count).1.Finished := by
  obtain ⟨count, h⟩ := h
  rw [steps_step] at h
  exact ⟨count + 1, h⟩

theorem exists_finished_of_idle {waiting : List (Job E)}
    (hidle : ∀ replies thread,
      ∃ count, ((⟨replies, none, waiting⟩ : Worker E).steps thread count).1.Finished)
    (replies : List (Reply E)) (session : Session E (Reply E)) (thread : Thread E) :
    ∃ count, ((⟨replies, some session, waiting⟩ : Worker E).steps thread count).1.Finished := by
  induction session generalizing thread with
  | done reply => exact exists_finished_of_step (hidle _ _)
  | note call next ih => exact exists_finished_of_step (ih _)
  | collect systemId next ih => exact exists_finished_of_step (ih _ _)
  | collected collector next ih => exact exists_finished_of_step (ih _ _)
  | install collector next ih => exact exists_finished_of_step (ih _)
  | uninstall next ih => exact exists_finished_of_step (ih _)
  | report context channel notice next ih => exact exists_finished_of_step (ih _)
  | enter resolution next ih => exact exists_finished_of_step (ih _ _)
  | restore previous next ih => exact exists_finished_of_step (ih _)
  | fetch url publicId next ih => exact exists_finished_of_step (ih _ _)

/-- Every worker comes to its end. -/
theorem exists_finished (worker : Worker E) (thread : Thread E) :
    ∃ count, (worker.steps thread count).1.Finished := by
  have hidle : ∀ (waiting : List (Job E)) replies thread,
      ∃ count, ((⟨replies, none, waiting⟩ : Worker E).steps thread count).1.Finished := by
    intro waiting
    induction waiting with
    | nil => exact fun replies thread => ⟨0, rfl, rfl⟩
    | cons job waiting ih =>
        intro replies thread
        exact exists_finished_of_step (exists_finished_of_idle ih replies job.session thread)
  obtain ⟨replies, current, waiting⟩ := worker
  cases current with
  | none => exact hidle waiting replies thread
  | some session => exact exists_finished_of_idle (hidle waiting) replies session thread

/-! ### Workers at the same point -/

/-- Two workers at the same point, whose jobs in hand differ at most in the places of their
collectors. -/
structure Alike (places : List Nat) (worker worker' : Worker E) : Prop where
  replies : worker'.replies = worker.replies
  current : Option.Rel (Session.Alike places) worker.current worker'.current
  waiting : worker'.waiting = worker.waiting

/-- Two workers at the same point, on threads at the same point. -/
structure Abreast (places : List Nat) (state state' : Worker E × Thread E) : Prop where
  alike : Alike places state.1 state'.1
  mirrors : state.2.Mirrors places state'.2

section

variable {places : List Nat} {worker worker' : Worker E} {alone shared : Thread E}

theorem Alike.finished_iff (h : Alike places worker worker') :
    worker'.Finished ↔ worker.Finished := by
  obtain ⟨replies, current, waiting⟩ := worker
  obtain ⟨replies', current', waiting'⟩ := worker'
  obtain ⟨-, hcurrent, rfl⟩ := h
  cases hcurrent with
  | none => exact ⟨fun hend => ⟨rfl, hend.waiting⟩, fun hend => ⟨rfl, hend.waiting⟩⟩
  | some => exact ⟨fun hend => (nomatch hend.current), fun hend => (nomatch hend.current)⟩

/-- A worker that makes no collector in an action. -/
theorem Abreast.stay {state state' : Worker E × Thread E} (h : Abreast places state state')
    (hlength : state'.2.collectors.length = shared.collectors.length) :
    Abreast (places ++ shared.made state'.2) state state' := by
  rw [Thread.append_made_of_length_eq places hlength]
  exact h

theorem Abreast.step (h : Abreast places (worker, alone) (worker', shared)) :
    Abreast (places ++ shared.made (worker'.step shared).2) (worker.step alone)
      (worker'.step shared) := by
  obtain ⟨⟨hreplies, hcurrent, hwaiting⟩, hmirrors⟩ := h
  obtain ⟨replies, current, waiting⟩ := worker
  obtain ⟨replies', current', waiting'⟩ := worker'
  cases hreplies
  cases hwaiting
  cases hcurrent with
  | none =>
      cases waiting with
      | nil => exact Abreast.stay ⟨⟨rfl, .none, rfl⟩, hmirrors⟩ rfl
      | cons job waiting =>
          have hjob := Option.Rel.some (job.bracketed.alike places)
          exact Abreast.stay ⟨⟨rfl, hjob, rfl⟩, hmirrors⟩ rfl
  | @some session session' hsession =>
      have hstep := hsession.step hmirrors
      cases hsession with
      | done reply => exact Abreast.stay ⟨⟨rfl, .none, rfl⟩, hmirrors⟩ rfl
      | _ => exact ⟨⟨rfl, .some hstep.alike, rfl⟩, hstep.mirrors⟩

theorem Abreast.frame_step (h : Abreast places (worker, alone) (worker', shared)) {place : Nat}
    (helse : place ∉ places) (hlt : place < shared.collectors.length) :
    (worker'.step shared).2.collectors[place]? = shared.collectors[place]? := by
  obtain ⟨⟨hreplies, hcurrent, hwaiting⟩, hmirrors⟩ := h
  obtain ⟨replies, current, waiting⟩ := worker
  obtain ⟨replies', current', waiting'⟩ := worker'
  cases hcurrent with
  | none => cases waiting' <;> rfl
  | @some session session' hsession =>
      have hframe := hsession.frame_step hmirrors helse hlt
      cases hsession with
      | done reply => rfl
      | _ => exact hframe

end

end Worker

/-! ## Pools -/

/-- What is kept for one thread: its worker, its handler and resolution, the calls and the log
records that it made, and the places of the collectors that it made, in that order. -/
structure Lane (E : Engine) where
  worker : Worker E
  handler : Option Nat
  resolution : Option (Resolution E)
  journal : List Call
  log : List LogRecord
  made : List Nat

/-- All threads, and the memory that they share. -/
structure Pool (ι : Type) (E : Engine) where
  memory : List Collector
  lanes : ι → Lane E

namespace Pool

variable {ι : Type}

/-- Threads with all their jobs to come, and nothing in memory. -/
def start (jobs : ι → List (Job E)) : Pool ι E where
  memory := []
  lanes i := ⟨.start (jobs i), none, none, [], [], []⟩

/-- A thread as it sees itself. Every collector in memory is within its reach. -/
def thread (pool : Pool ι E) (i : ι) : Thread E :=
  ⟨(pool.lanes i).handler, (pool.lanes i).resolution, pool.memory, (pool.lanes i).journal,
    (pool.lanes i).log⟩

/-- What the collectors hold that a thread made. -/
def collectors (pool : Pool ι E) (i : ι) : List Collector :=
  (pool.lanes i).made.map (pool.thread i).collected

/-- A thread performs an action. One that has done its jobs does nothing. -/
def act [DecidableEq ι] (pool : Pool ι E) (i : ι) : Pool ι E :=
  let after := (pool.lanes i).worker.step (pool.thread i)
  { memory := after.2.collectors
    lanes := Function.update pool.lanes i
      { worker := after.1
        handler := after.2.handler
        resolution := after.2.resolution
        journal := after.2.journal
        log := after.2.log
        made := (pool.lanes i).made ++ (pool.thread i).made after.2 } }

end Pool

/-- The pools that threads with such jobs come to, with who acted on the way. -/
inductive Interleaving {ι : Type} [DecidableEq ι] (jobs : ι → List (Job E)) :
    List ι → Pool ι E → Prop where
  | start : Interleaving jobs [] (.start jobs)
  | act {schedule : List ι} {pool : Pool ι E} (h : Interleaving jobs schedule pool) (i : ι) :
      Interleaving jobs (schedule ++ [i]) (pool.act i)

/-! ## Threads in step -/

section

variable {ι : Type} [DecidableEq ι] {jobs : ι → List (Job E)} {schedule : List ι}
  {pool : Pool ι E}

/-- The worker of a thread, and the thread, after so many actions with a memory to themselves. -/
def Worker.alone (jobs : List (Job E)) (count : Nat) : Worker E × Thread E :=
  (Worker.start jobs).steps Thread.fresh count

/-- Every thread is where as many actions take it alone, and no collector belongs to two. -/
structure InStep (jobs : ι → List (Job E)) (schedule : List ι) (pool : Pool ι E) : Prop where
  abreast : ∀ i, Worker.Abreast (pool.lanes i).made (Worker.alone (jobs i) (schedule.count i))
    ((pool.lanes i).worker, pool.thread i)
  apart : ∀ i j, i ≠ j → (pool.lanes i).made.Disjoint (pool.lanes j).made

theorem Pool.lanes_act_of_ne {i j : ι} (h : j ≠ i) : (pool.act i).lanes j = pool.lanes j :=
  Function.update_of_ne h _ _

theorem InStep.memory_act (h : InStep jobs schedule pool) {i j : ι} (hne : j ≠ i) {place : Nat}
    (hplace : place ∈ (pool.lanes j).made) :
    (pool.act i).memory[place]? = pool.memory[place]? :=
  (h.abreast i).frame_step (h.apart j i hne hplace) ((h.abreast j).mirrors.lt_length hplace)

/-- The collectors that an action makes are in places where there was none. -/
theorem InStep.disjoint_act (h : InStep jobs schedule pool) {i j : ι} (hne : i ≠ j) :
    ((pool.act i).lanes i).made.Disjoint (pool.lanes j).made := by
  simp only [Pool.act, Function.update_self]
  refine List.disjoint_append_left.2 ⟨h.apart i j hne, fun place hnew hold => ?_⟩
  have hge : pool.memory.length ≤ place := by
    obtain ⟨_, _, rfl⟩ := List.mem_range'.1 hnew
    exact Nat.le_add_right _ _
  exact Nat.not_lt_of_le hge ((h.abreast j).mirrors.lt_length hold)

theorem InStep.start (jobs : ι → List (Job E)) : InStep jobs [] (.start jobs) where
  abreast i := by
    refine ⟨⟨rfl, .none, rfl⟩, ?_⟩
    exact ⟨.none, rfl, rfl, rfl, rfl, List.nodup_nil, fun h => nomatch h⟩
  apart i j hne := List.disjoint_nil_left _

theorem InStep.act (h : InStep jobs schedule pool) (i : ι) :
    InStep jobs (schedule ++ [i]) (pool.act i) where
  abreast j := by
    by_cases hj : j = i
    · subst hj
      have hstep := (h.abreast j).step
      rw [List.count_append, List.count_singleton_self]
      simp only [Pool.act, Pool.thread, Function.update_self] at hstep ⊢
      exact hstep
    · have hcount : (schedule ++ [i]).count j = schedule.count j := by
        rw [List.count_append, List.count_singleton, if_neg (by simpa using Ne.symm hj),
          Nat.add_zero]
      have hframe := (h.abreast j).mirrors.frame fun place hplace => h.memory_act hj hplace
      rw [hcount]
      simp only [Pool.thread, Pool.lanes_act_of_ne hj] at hframe ⊢
      exact ⟨(h.abreast j).alike, hframe⟩
  apart j k hne := by
    by_cases hj : j = i
    · subst hj
      rw [Pool.lanes_act_of_ne (Ne.symm hne)]
      exact h.disjoint_act hne
    · rw [Pool.lanes_act_of_ne hj]
      by_cases hk : k = i
      · subst hk
        exact List.disjoint_symm (h.disjoint_act (Ne.symm hne))
      · rw [Pool.lanes_act_of_ne hk]
        exact h.apart j k hne

/-- Whoever acts, and in whatever order, all threads stay in step. -/
theorem Interleaving.inStep (h : Interleaving jobs schedule pool) : InStep jobs schedule pool := by
  induction h with
  | start => exact .start jobs
  | act _ i ih => exact ih.act i

/-- The collectors of a thread hold what they hold alone. -/
theorem InStep.collectors (h : InStep jobs schedule pool) (i : ι) :
    pool.collectors i = (Worker.alone (jobs i) (schedule.count i)).2.collectors :=
  (h.abreast i).mirrors.map_collected

/-- An action leaves every other thread alone. -/
theorem InStep.frame (h : InStep jobs schedule pool) {i j : ι} (hne : j ≠ i) :
    (pool.act i).lanes j = pool.lanes j ∧ (pool.act i).collectors j = pool.collectors j := by
  refine ⟨Pool.lanes_act_of_ne hne, ?_⟩
  simp only [Pool.collectors, Pool.lanes_act_of_ne hne]
  refine List.map_congr_left fun place hplace => ?_
  simp only [Thread.collected, Pool.thread, h.memory_act hne hplace]

/-! ## Replies -/

/-- The replies that a thread has had are the first of those that it has alone, and all of them
once it has finished. -/
theorem InStep.replies (h : InStep jobs schedule pool) (i : ι) :
    (pool.lanes i).worker.replies <+: ((Job.sessions (jobs i)).run Thread.fresh).1 ∧
      ((pool.lanes i).worker.Finished →
        (pool.lanes i).worker.replies = ((Job.sessions (jobs i)).run Thread.fresh).1) := by
  have halike := (h.abreast i).alike
  have hall := (Worker.start (jobs i)).run_steps Thread.fresh (schedule.count i)
  unfold Worker.alone at halike
  rw [halike.replies]
  refine ⟨⟨_, hall⟩, fun hend => ?_⟩
  rw [(halike.finished_iff.1 hend).rest] at hall
  exact (List.append_nil _).symm.trans hall

/-- Every thread comes to its end with so many actions of its own, whatever the others do. -/
theorem exists_finished (jobs : ι → List (Job E)) (i : ι) :
    ∃ enough, ∀ {schedule pool}, Interleaving jobs schedule pool →
      enough ≤ schedule.count i → (pool.lanes i).worker.Finished := by
  obtain ⟨enough, hend⟩ := (Worker.start (jobs i)).exists_finished Thread.fresh
  refine ⟨enough, fun h hle => ?_⟩
  exact (h.inStep.abreast i).alike.finished_iff.2 (Worker.finished_of_le hend hle)

/-- Whatever the other threads do, and in whatever order, a thread has the replies, the calls to
the engine with what they led to, the log and the collectors that it has after as many actions
alone; these replies are the first of those that its jobs give alone, and all of them after enough
actions. No action of another thread changes anything of this one or of its collectors. -/
theorem alone_of_interleaving (jobs : ι → List (Job E)) (i : ι) :
    ∃ enough, ∀ {schedule pool}, Interleaving jobs schedule pool →
      let alone := Worker.alone (jobs i) (schedule.count i)
      let replies := ((Job.sessions (jobs i)).run Thread.fresh).1
      ((pool.lanes i).worker.replies = alone.1.replies ∧
        (pool.lanes i).resolution = alone.2.resolution ∧
        (pool.lanes i).journal = alone.2.journal ∧ (pool.lanes i).log = alone.2.log ∧
        pool.collectors i = alone.2.collectors) ∧
      (pool.lanes i).worker.replies <+: replies ∧
      ((pool.lanes i).worker.Finished → (pool.lanes i).worker.replies = replies) ∧
      (enough ≤ schedule.count i → (pool.lanes i).worker.Finished) ∧
      ∀ j, j ≠ i → (pool.act j).lanes i = pool.lanes i ∧
        (pool.act j).collectors i = pool.collectors i := by
  obtain ⟨enough, hend⟩ := exists_finished jobs i
  refine ⟨enough, fun {schedule pool} h => ?_⟩
  have hstep := h.inStep
  obtain ⟨halike, hmirrors⟩ := hstep.abreast i
  obtain ⟨hfirst, hall⟩ := hstep.replies i
  refine ⟨⟨halike.replies, hmirrors.resolution, hmirrors.journal, hmirrors.log, ?_⟩, hfirst, hall,
    hend h, fun j hne => hstep.frame (Ne.symm hne)⟩
  exact hstep.collectors i

/-- Any order is possible. -/
theorem interleaving_foldl (jobs : ι → List (Job E)) (schedule : List ι) :
    Interleaving jobs schedule (schedule.foldl Pool.act (.start jobs)) := by
  induction schedule using List.reverseRecOn with
  | nil => exact .start
  | append_singleton schedule i ih =>
      rw [List.foldl_append]
      exact ih.act i

end

/-- Two threads that validate a document each, on one schema. -/
def rivals (second : Bool) : List (Job (Schema.Validator.uniform Schema.Validator.mixed)) :=
  [.validate Schema.Validator.noFiles ⟨(), "s.xsd"⟩
    (.memory [] (if second then "b.xml" else "a.xml"))]

/-- Both threads in turn, to their ends. -/
def turns : List Bool :=
  (List.replicate 11 [false, true]).flatten

theorem alone_of_interleaving_turns :
    let pool := turns.foldl Pool.act (.start rivals)
    (pool.lanes false).worker.replies =
        [.violations (.ok [⟨"part.xml:3:7", "wrong"⟩, ⟨"a.xml:4:-1", ""⟩])] ∧
      (pool.lanes true).worker.replies =
        [.violations (.ok [⟨"part.xml:3:7", "wrong"⟩, ⟨"b.xml:4:-1", ""⟩])] := by
  have hpool := interleaving_foldl rivals turns
  obtain ⟨_, hfirst⟩ := alone_of_interleaving rivals false
  obtain ⟨_, hsecond⟩ := alone_of_interleaving rivals true
  obtain ⟨-, -, hfirst, -, -⟩ := hfirst hpool
  obtain ⟨-, -, hsecond, -, -⟩ := hsecond hpool
  exact ⟨(hfirst ⟨rfl, rfl⟩).trans rfl, (hsecond ⟨rfl, rfl⟩).trans rfl⟩

end Conformance
