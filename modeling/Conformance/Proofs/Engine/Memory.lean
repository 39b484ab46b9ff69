import Conformance.Proofs.Engine.Collecting
import Conformance.Proofs.Engine.Stepping

/-!
# Collectors in a shared memory

A collector is known by its place in memory, and that depends on what else is there. So a session
meets other places on a thread that has the memory to itself than on one that shares it. It must
not matter. Throughout, `places` lists where the collectors that a session makes are in the shared
memory, in the order in which it makes them.

* `Session.Alike` : two sessions that differ at most in what they call their collectors;
* `Bracketed.alike` : a session made of brackets does not look at places;
* `Thread.Mirrors` : a thread that shares its memory and one that does not, at the same point;
* `Alike.step`, `Alike.frame_step` : an action of both leads to the same point again, and disturbs
  no other place of the shared memory.
-/

namespace Conformance

variable {E : Engine} {α β : Type}

/-! ## Sessions that differ in places -/

/-- The handlers of two threads, or two contexts: none, or the same collector at its two places. -/
abbrev Located (places : List Nat) : Option Nat → Option Nat → Prop :=
  Option.Rel fun collector place => places[collector]? = some place

namespace Located

theorem getElem?_append {places : List Nat} {collector place : Nat}
    (hplace : places[collector]? = some place) (further : List Nat) :
    (places ++ further)[collector]? = some place := by
  obtain ⟨hlt, -⟩ := List.getElem?_eq_some_iff.1 hplace
  rw [List.getElem?_append_left hlt, hplace]

theorem append {places : List Nat} {handler handler' : Option Nat}
    (h : Located places handler handler') (further : List Nat) :
    Located (places ++ further) handler handler' := by
  cases h with
  | none => exact .none
  | some hplace => exact .some (getElem?_append hplace further)

end Located

namespace Session

/-- Two sessions that do the same with the collectors at places that correspond. -/
inductive Alike : List Nat → Session E α → Session E α → Prop where
  | done {places : List Nat} (value : α) : Alike places (.done value) (.done value)
  | note {places : List Nat} (call : Call) {next next' : Session E α}
      (h : Alike places next next') : Alike places (.note call next) (.note call next')
  | collect {places : List Nat} (systemId : String) {next next' : Nat → Session E α}
      (h : ∀ place, Alike (places ++ [place]) (next places.length) (next' place)) :
      Alike places (.collect systemId next) (.collect systemId next')
  | collected {places : List Nat} {collector place : Nat} (hplace : places[collector]? = some place)
      {next next' : Collector → Session E α} (h : ∀ state, Alike places (next state) (next' state)) :
      Alike places (.collected collector next) (.collected place next')
  | install {places : List Nat} {collector place : Nat} (hplace : places[collector]? = some place)
      {next next' : Session E α} (h : Alike places next next') :
      Alike places (.install collector next) (.install place next')
  | uninstall {places : List Nat} {next next' : Session E α} (h : Alike places next next') :
      Alike places (.uninstall next) (.uninstall next')
  | report {places : List Nat} {context context' : Option Nat}
      (hcontext : Located places context context') (channel : Channel) (notice : Notice)
      {next next' : Session E α} (h : Alike places next next') :
      Alike places (.report context channel notice next) (.report context' channel notice next')
  | enter {places : List Nat} (resolution : Resolution E)
      {next next' : Option (Resolution E) → Session E α}
      (h : ∀ previous, Alike places (next previous) (next' previous)) :
      Alike places (.enter resolution next) (.enter resolution next')
  | restore {places : List Nat} (previous : Option (Resolution E)) {next next' : Session E α}
      (h : Alike places next next') :
      Alike places (.restore previous next) (.restore previous next')
  | fetch {places : List Nat} (url publicId : Option RawText)
      {next next' : Option E.Entity → Session E α}
      (h : ∀ entity, Alike places (next entity) (next' entity)) :
      Alike places (.fetch url publicId next) (.fetch url publicId next')

theorem Alike.bind {places : List Nat} {session session' : Session E α}
    {after after' : α → Session E β} (h : Alike places session session')
    (hafter : ∀ further value, Alike (places ++ further) (after value) (after' value)) :
    Alike places (session.bind after) (session'.bind after') := by
  induction h with
  | @done places value =>
      have hnow := hafter [] value
      rw [List.append_nil] at hnow
      exact hnow
  | note call _ ih => exact .note call (ih hafter)
  | @collect places systemId _ _ _ ih =>
      refine .collect systemId fun place => ih place fun further value => ?_
      rw [List.append_assoc]
      exact hafter ([place] ++ further) value
  | collected hplace _ ih => exact .collected hplace fun state => ih state hafter
  | install hplace _ ih => exact .install hplace (ih hafter)
  | uninstall _ ih => exact .uninstall (ih hafter)
  | report hcontext channel notice _ ih => exact .report hcontext channel notice (ih hafter)
  | enter resolution _ ih => exact .enter resolution fun previous => ih previous hafter
  | restore previous _ ih => exact .restore previous (ih hafter)
  | fetch url publicId _ ih => exact .fetch url publicId fun entity => ih entity hafter

theorem Alike.within {places : List Nat} (resolution : Option (Resolution E))
    {body body' : Session E α} (h : Alike places body body') :
    Alike places (within resolution body) (within resolution body') := by
  cases resolution with
  | none => exact h
  | some resolution =>
      exact .enter resolution fun previous => h.bind fun _ value =>
        .restore previous (.done value)

theorem Passive.alike {session : Session E α} (h : Passive session) (places : List Nat) :
    Alike places session session := by
  induction h with
  | done value => exact .done value
  | note call _ ih => exact .note call ih
  | report channel notice _ ih => exact .report .none channel notice ih
  | fetch url publicId _ ih => exact .fetch url publicId ih

theorem alike_follow {places : List Nat} {collector place : Nat}
    (hplace : places[collector]? = some place) (call : Run E.Entity α) :
    Alike places (follow (some collector) call) (follow (some place) call) := by
  induction call with
  | done value => exact .done value
  | report channel notice next ih => exact .report (.some hplace) channel notice ih
  | fetch url publicId next ih => exact .note _ (.fetch url publicId ih)

/-- What is enclosed does the same for a collector at either of its places. -/
theorem Enclosed.alike {body : Nat → Session E α} (h : Enclosed body) {places : List Nat}
    {collector place : Nat} (hplace : places[collector]? = some place) :
    Alike places (body collector) (body place) := by
  induction h generalizing places with
  | passive h => exact h.alike places
  | follow call => exact alike_follow hplace call
  | bind _ _ ih ihnext =>
      exact (ih hplace).bind fun further value =>
        ihnext value (Located.getElem?_append hplace further)
  | within resolution _ ih => exact (ih hplace).within resolution

/-- A session made of brackets uses its collectors only by what they are called. -/
theorem Bracketed.alike {session : Session E α} (h : Bracketed session) (places : List Nat) :
    Alike places session session := by
  induction h generalizing places with
  | passive h => exact h.alike places
  | capturing systemId h =>
      refine .collect systemId fun place => ?_
      have hplace : (places ++ [place])[places.length]? = some place := by simp
      refine .install hplace ((h.alike hplace).bind fun further value => ?_)
      exact .uninstall (.collected (Located.getElem?_append hplace further) fun state =>
        .done (value, state))
  | within resolution _ ih => exact (ih places).within resolution
  | bind _ _ ih ihnext => exact (ih places).bind fun further value => ihnext value _

end Session

/-! ## Threads at the same point -/

namespace Thread

/-- A notice that is handed to a handler, if there is one. -/
def hand (thread : Thread E) (handler : Option Nat) (notice : Notice) : Thread E :=
  match handler with
  | some collector => thread.deliver collector notice
  | none => thread

/-- A thread with a memory of its own, and one at the same point in a memory that it shares. -/
structure Mirrors (places : List Nat) (alone shared : Thread E) : Prop where
  handler : Located places alone.handler shared.handler
  resolution : shared.resolution = alone.resolution
  journal : shared.journal = alone.journal
  log : shared.log = alone.log
  length : places.length = alone.collectors.length
  nodup : places.Nodup
  held : ∀ {collector place : Nat}, places[collector]? = some place →
    shared.collectors[place]? = alone.collectors[collector]?

/-- The places of the collectors that are made between two moments of a thread. -/
def made (before after : Thread E) : List Nat :=
  List.range' before.collectors.length (after.collectors.length - before.collectors.length)

theorem append_made_of_length_eq (places : List Nat) {before after : Thread E}
    (h : after.collectors.length = before.collectors.length) :
    places ++ before.made after = places := by
  rw [made, h, Nat.sub_self, List.range'_zero, List.append_nil]

namespace Mirrors

variable {places : List Nat} {alone shared : Thread E}

theorem collected (h : Mirrors places alone shared) {collector place : Nat}
    (hplace : places[collector]? = some place) :
    shared.collected place = alone.collected collector := by
  rw [Thread.collected, Thread.collected, h.held hplace]

theorem lt_length (h : Mirrors places alone shared) {place : Nat} (hmem : place ∈ places) :
    place < shared.collectors.length := by
  obtain ⟨collector, hcollector⟩ := List.getElem?_of_mem hmem
  have hlt : collector < alone.collectors.length := by
    rw [← h.length]
    exact (List.getElem?_eq_some_iff.1 hcollector).1
  have hheld := h.held hcollector
  rw [List.getElem?_eq_getElem hlt] at hheld
  exact (List.getElem?_eq_some_iff.1 hheld).1

/-- The shared memory holds, at the places of a thread, what the thread has alone. -/
theorem map_collected (h : Mirrors places alone shared) :
    places.map shared.collected = alone.collectors := by
  apply List.ext_getElem?
  intro collector
  rw [List.getElem?_map]
  cases hplace : places[collector]? with
  | none =>
      have hle : alone.collectors.length ≤ collector := by
        rw [← h.length]
        exact List.getElem?_eq_none_iff.1 hplace
      rw [List.getElem?_eq_none_iff.2 hle]
      rfl
  | some place =>
      have hlt : collector < alone.collectors.length := by
        rw [← h.length]
        exact (List.getElem?_eq_some_iff.1 hplace).1
      rw [Option.map_some, h.collected hplace, Thread.collected, List.getElem?_eq_getElem hlt,
        Option.getD_some]

/-- What happens elsewhere in the memory does not matter. -/
theorem frame (h : Mirrors places alone shared) {memory : List Collector}
    (hmemory : ∀ place ∈ places, memory[place]? = shared.collectors[place]?) :
    Mirrors places alone { shared with collectors := memory } where
  handler := h.handler
  resolution := h.resolution
  journal := h.journal
  log := h.log
  length := h.length
  nodup := h.nodup
  held hplace := (hmemory _ (List.mem_of_getElem? hplace)).trans (h.held hplace)

theorem deliver (h : Mirrors places alone shared) {collector place : Nat}
    (hplace : places[collector]? = some place) (notice : Notice) :
    Mirrors places (alone.deliver collector notice) (shared.deliver place notice) := by
  have hlog : (shared.deliver place notice).log = (alone.deliver collector notice).log := by
    unfold Thread.deliver
    rw [h.collected hplace]
    split
    · exact congrArg (· ++ _) h.log
    · exact h.log
  refine ⟨?_, ?_, ?_, hlog, ?_, h.nodup, ?_⟩
  · rw [deliver_handler, deliver_handler]
    exact h.handler
  · rw [deliver_resolution, deliver_resolution]
    exact h.resolution
  · rw [deliver_journal, deliver_journal]
    exact h.journal
  · rw [deliver_collectors, List.length_modify]
    exact h.length
  · intro other otherPlace hother
    rw [deliver_collectors, deliver_collectors, List.getElem?_modify, List.getElem?_modify,
      h.held hother]
    -- two collectors have one place only if they are one
    have hsame : place = otherPlace ↔ collector = other := by
      constructor
      · rintro rfl
        exact (List.getElem?_inj (List.getElem?_eq_some_iff.1 hplace).1 h.nodup).1
          (hplace.trans hother.symm)
      · rintro rfl
        exact Option.some.inj (hplace.symm.trans hother)
    simp only [hsame]

/-- A notice for the handlers, or for the contexts, of both threads. -/
theorem hand (h : Mirrors places alone shared) {handler handler' : Option Nat}
    (hhandler : Located places handler handler') (notice : Notice) :
    Mirrors places (alone.hand handler notice) (shared.hand handler' notice) := by
  cases hhandler with
  | none => exact h
  | some hplace => exact h.deliver hplace notice

theorem report (h : Mirrors places alone shared) {context context' : Option Nat}
    (hcontext : Located places context context') (channel : Channel) (notice : Notice) :
    Mirrors places (alone.report context channel notice)
      (shared.report context' channel notice) := by
  cases channel with
  | thread => exact h.hand h.handler notice
  | context => exact h.hand hcontext notice

theorem collect (h : Mirrors places alone shared) (systemId : String) :
    Mirrors (places ++ [shared.collectors.length]) (alone.collect systemId).2
      (shared.collect systemId).2 where
  handler := h.handler.append _
  resolution := h.resolution
  journal := h.journal
  log := h.log
  length := by simp [Thread.collect, h.length]
  nodup := by
    have hnew : ∀ place ∈ places, place ≠ shared.collectors.length := fun place hmem =>
      Nat.ne_of_lt (h.lt_length hmem)
    simpa [List.nodup_append, h.nodup] using hnew
  held {collector place} hplace := by
    rcases Nat.lt_or_ge collector places.length with hlt | hge
    · rw [List.getElem?_append_left hlt] at hplace
      have hmem := h.lt_length (List.mem_of_getElem? hplace)
      simp only [Thread.collect]
      rw [List.getElem?_append_left hmem, List.getElem?_append_left (h.length ▸ hlt), h.held hplace]
    · rw [List.getElem?_append_right hge] at hplace
      obtain ⟨hlt, rfl⟩ := List.getElem?_eq_some_iff.1 hplace
      have heq : collector = alone.collectors.length := by
        rw [List.length_singleton, h.length] at hlt
        rw [h.length] at hge
        omega
      subst heq
      simp [Thread.collect]

end Mirrors

theorem hand_collectors_length (thread : Thread E) (handler : Option Nat) (notice : Notice) :
    (thread.hand handler notice).collectors.length = thread.collectors.length := by
  cases handler with
  | none => rfl
  | some collector => rw [hand, deliver_collectors, List.length_modify]

theorem report_collectors_length (thread : Thread E) (context : Option Nat) (channel : Channel)
    (notice : Notice) :
    (thread.report context channel notice).collectors.length = thread.collectors.length := by
  cases channel with
  | thread => exact thread.hand_collectors_length thread.handler notice
  | context => exact thread.hand_collectors_length context notice

end Thread

/-! ## One action -/

namespace Session

section

variable {places : List Nat} {session session' : Session E α} {alone shared : Thread E}

/-- Two sessions, left to be performed on two threads. -/
structure Abreast (places : List Nat) (state state' : Session E α × Thread E) : Prop where
  alike : Alike places state.1 state'.1
  mirrors : state.2.Mirrors places state'.2

/-- An action that makes no collector. -/
theorem Abreast.stay {state state' : Session E α × Thread E} (h : Abreast places state state')
    (hlength : state'.2.collectors.length = shared.collectors.length) :
    Abreast (places ++ shared.made state'.2) state state' := by
  rw [Thread.append_made_of_length_eq places hlength]
  exact h

/-- After an action of both, two sessions are abreast again. -/
theorem Alike.step (h : Alike places session session') (hthreads : alone.Mirrors places shared) :
    Abreast (places ++ shared.made (session'.step shared).2) (session.step alone)
      (session'.step shared) := by
  cases h with
  | done value => exact Abreast.stay ⟨.done value, hthreads⟩ rfl
  | note call h => 
      refine Abreast.stay ⟨h, ?_⟩ rfl
      exact { hthreads with journal := congrArg (· ++ [call]) hthreads.journal }
  | collect systemId h =>
      have hmade : shared.made (shared.collect systemId).2 = [shared.collectors.length] := by
        simp [Thread.made, Thread.collect]
      simp only [Session.step, hmade]
      refine ⟨?_, hthreads.collect systemId⟩
      rw [Thread.collect, Thread.collect, ← hthreads.length]
      exact h _
  | @collected _ collector place hplace next next' h =>
      refine Abreast.stay ⟨?_, hthreads⟩ rfl
      simp only [Session.step, hthreads.collected hplace]
      exact h _
  | install hplace h => exact Abreast.stay ⟨h, { hthreads with handler := .some hplace }⟩ rfl
  | uninstall h => exact Abreast.stay ⟨h, { hthreads with handler := .none }⟩ rfl
  | report hcontext channel notice h =>
      exact Abreast.stay ⟨h, hthreads.report hcontext channel notice⟩
        (shared.report_collectors_length _ channel notice)
  | enter resolution h =>
      refine Abreast.stay ⟨?_, { hthreads with resolution := rfl }⟩ rfl
      simp only [Session.step, Thread.enter, hthreads.resolution]
      exact h _
  | restore previous h => exact Abreast.stay ⟨h, { hthreads with resolution := rfl }⟩ rfl
  | fetch url publicId h =>
      have htarget : shared.target url publicId = alone.target url publicId := by
        simp only [Thread.target, hthreads.resolution]
      have hconsulted : shared.consulted url publicId = alone.consulted url publicId := by
        simp only [Thread.consulted, hthreads.resolution]
      refine Abreast.stay ⟨?_, ?_⟩ rfl
      · simp only [Session.step, Thread.fetch, htarget]
        exact h _
      · simp only [Session.step, Thread.fetch, htarget, hconsulted]
        exact { hthreads with journal := congrArg (· ++ _) hthreads.journal }

/-- An action leaves what is elsewhere in the memory as it was. -/
theorem Alike.frame_step (h : Alike places session session')
    (hthreads : alone.Mirrors places shared) {place : Nat} (helse : place ∉ places)
    (hlt : place < shared.collectors.length) :
    (session'.step shared).2.collectors[place]? = shared.collectors[place]? := by
  have hhand : ∀ {handler handler' : Option Nat} (notice : Notice),
      Located places handler handler' →
        (shared.hand handler' notice).collectors[place]? = shared.collectors[place]? := by
    intro handler handler' notice hhandler
    cases hhandler with
    | none => rfl
    | @some _ other hplace =>
        have hne : other ≠ place := fun heq => helse (heq ▸ List.mem_of_getElem? hplace)
        rw [Thread.hand, Thread.deliver_collectors, List.getElem?_modify_ne _ _ hne]
  cases h with
  | collect systemId h => exact List.getElem?_append_left hlt
  | report hcontext channel notice h =>
      cases channel with
      | thread => exact hhand notice hthreads.handler
      | context => exact hhand notice hcontext
  | done | note | collected | install | uninstall | enter | restore | fetch => rfl

end

end Session

end Conformance
