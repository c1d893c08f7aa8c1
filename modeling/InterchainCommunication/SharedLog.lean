import InterchainCommunication.LogFiles

set_option autoImplicit false

namespace InterchainCommunication.SharedLog
open StringText JsonGrammar JsonReading MachineRuns DetailedLog LogFiles

/-- How events of one kind stand in their file: as the calls that write them, and as the objects that
    are read. Other lines of the file are read as nothing. -/
structure EventFile (ε : Type) where
  category : EventLog.LogCategory
  file : Bytes
  logged : LoggerCall → Option ε
  read : Json → Option ε
  fixed : file ∈ [transactionsFile, ibcEventsFile, networkDropsFile]
  recorded : ∀ call category' file' entries, call.record = some (category', file', entries) →
    (file' = file ∧ category' = category ∧ read (.object (entries.map Entry.member)) = logged call) ∨
      (file' ≠ file ∧ logged call = none)
  unrecorded : ∀ call, call.record = none → logged call = none

/-- A step of the component with the times of its lines, or any call of the logger. -/
inductive LogInput (ι : Type)
  | own (i : ι) (clock : ℕ → Bytes)
  | other (call : LoggerCall)

def LogInput.own? {ι : Type} : LogInput ι → Option ι
  | own i _ => some i
  | other _ => none

namespace EventFile
variable {ε : Type} (F : EventFile ε)

def KeepsOn : LoggerCall → Prop
  | .enableCategory category enabled => category = F.category → enabled = true
  | _ => True

/-- The calls of others keep the category on, and write no event of this kind. -/
def Foreign (call : LoggerCall) : Prop := F.logged call = none ∧ F.KeepsOn call

def readBack (text : Bytes) : List ε := (text.splitOn 10).filterMap fun line => (parse line).bind F.read

theorem readBack_text {text : Bytes} {es : List (List Entry)} (reads : ReadsAs text es) :
    F.readBack text = es.filterMap fun e => F.read (.object (e.map Entry.member)) := by
  obtain ⟨lines, parsed⟩ := reads
  have nothing : parse [] = none := by decide
  have each := congrArg (List.filterMap fun v => v.bind F.read) parsed
  simp only [List.filterMap_map] at each
  rw [readBack, lines, List.filterMap_append, List.filterMap_map]
  simp only [List.filterMap_cons, List.filterMap_nil, nothing, Option.bind_none, List.append_nil]
  exact each

variable {F}

theorem switch_on {call : LoggerCall} (keeps : F.KeepsOn call) {enabled : EventLog.LogCategory → Bool}
    (on : enabled F.category = true) : call.switch enabled F.category = true := by
  cases call with
  | enableCategory category enabled' =>
    change Function.update enabled category enabled' F.category = true
    by_cases here : F.category = category
    · rw [here, Function.update_self]
      exact keeps here.symm
    · rw [Function.update_of_ne here]
      exact on
  | transaction | ibc | networkDrop | nodeState | relayerState | flushAll => exact on

theorem held_logged (calls : List LoggerCall) (enabled : EventLog.LogCategory → Bool)
    (on : enabled F.category = true) (keeps : ∀ call ∈ calls, F.KeepsOn call) :
    (held F.file (records enabled calls)).filterMap (fun es => F.read (.object (es.map Entry.member))) =
      calls.filterMap F.logged := by
  induction calls generalizing enabled with
  | nil => rfl
  | cons call calls ih =>
    have rest := ih (call.switch enabled) (switch_on (keeps call List.mem_cons_self) on)
      fun c hc => keeps c (List.mem_cons_of_mem call hc)
    rw [records, held_append, List.filterMap_append, rest]
    cases record : call.record with
    | none =>
      rw [List.filterMap_cons, F.unrecorded call record]
      rfl
    | some found =>
      obtain ⟨category, file, entries⟩ := found
      dsimp only
      rcases F.recorded call category file entries record with ⟨rfl, rfl, reads⟩ | ⟨other, nothing⟩
      · rw [if_pos on, List.filterMap_cons, ← reads]
        have one : held F.file [(F.file, entries)] = [entries] := by simp [held]
        rw [one, List.filterMap_cons]
        cases F.read (.object (entries.map Entry.member)) <;> rfl
      · have nowhere : held F.file (if enabled category then [(file, entries)] else []) = [] := by
          split
          · simp [held, other]
          · rfl
        rw [nowhere, List.filterMap_cons, nothing]
        rfl

end EventFile

section Runs
variable {σ ι ο ε : Type} (M : Machine σ ι ο) (events : ο → List ε) (write : Bytes → ε → LoggerCall)
variable (opens : Bytes → Bool)

def written (clock : ℕ → Bytes) (out : ο) : List LoggerCall := (events out).mapIdx fun k e => write (clock k) e

/-- The component and the logger it shares. -/
def loggedMachine : Machine (σ × DetailedLogger) (LogInput ι) (Option ο) where
  step x
    | .own i clock =>
      let next := M.step x.1 i
      ((next.1, (loggerMachine opens).final x.2 (written events write clock next.2)), some next.2)
    | .other call => ((x.1, ((loggerMachine opens).step x.2 call).1), none)

variable {M events write opens}

theorem filterMap_written {F : EventFile ε} (writes : ∀ now e, F.logged (write now e) = some e) (clock : ℕ → Bytes)
    (out : ο) : (written events write clock out).filterMap F.logged = events out := by
  unfold written
  induction events out generalizing clock with
  | nil => rfl
  | cons e es ih =>
    rw [List.mapIdx_cons, List.filterMap_cons, writes]
    exact congrArg (List.cons e) (ih fun k => clock (k + 1))

/-- A shared run is a run of the component beside calls of the logger, of which those of the component
    are its events. -/
theorem logged_run {F : EventFile ε} (writes : ∀ now e, F.logged (write now e) = some e)
    (keeps : ∀ now e, F.KeepsOn (write now e)) (is : List (LogInput ι))
    (foreign : ∀ call, .other call ∈ is → F.Foreign call) (s : σ) (l : DetailedLogger) :
    let J := loggedMachine M events write opens
    let own := is.filterMap LogInput.own?
    (J.final (s, l) is).1 = M.final s own ∧
      ∃ calls, (J.final (s, l) is).2 = (loggerMachine opens).final l calls ∧
        (∀ call ∈ calls, F.KeepsOn call) ∧
        calls.filterMap F.logged = (M.trace s own).flatMap fun e => events e.2 := by
  intro J own
  induction is generalizing s l with
  | nil => exact ⟨rfl, [], rfl, by simp, rfl⟩
  | cons i is ih =>
    have later := fun call hc => foreign call (List.mem_cons_of_mem i hc)
    cases i with
    | own i clock =>
      obtain ⟨steps, calls, final, keep, logged⟩ := ih later (M.step s i).1
        ((loggerMachine opens).final l (written events write clock (M.step s i).2))
      refine ⟨steps, written events write clock (M.step s i).2 ++ calls, ?_, ?_, ?_⟩
      · rw [Machine.final_append]
        exact final
      · intro call member
        rcases List.mem_append.mp member with now | after
        · obtain ⟨k, -, rfl⟩ := List.mem_mapIdx.mp now
          exact keeps _ _
        · exact keep call after
      · rw [List.filterMap_append, logged, filterMap_written writes]
        rfl
    | other call =>
      obtain ⟨steps, calls, final, keep, logged⟩ := ih later s ((loggerMachine opens).step l call).1
      obtain ⟨nothing, on⟩ := foreign call List.mem_cons_self
      refine ⟨steps, call :: calls, final, ?_, ?_⟩
      · intro c member
        rcases List.mem_cons.mp member with rfl | after
        · exact on
        · exact keep c after
      · rw [List.filterMap_cons, nothing]
        exact logged

/-- What is read back from the file are the events of the component's own run. -/
theorem reads_own {F : EventFile ε} (writes : ∀ now e, F.logged (write now e) = some e)
    (keeps : ∀ now e, F.KeepsOn (write now e)) {l : DetailedLogger}
    (start : DetailedLogger.new opens (fun _ => []) = .ok l) (is : List (LogInput ι))
    (foreign : ∀ call, .other call ∈ is → F.Foreign call) (s : σ) :
    let J := loggedMachine M events write opens
    let own := is.filterMap LogInput.own?
    (J.final (s, l) is).1 = M.final s own ∧
      F.readBack ((J.final (s, l) is).2.disk F.file) = (M.trace s own).flatMap fun e => events e.2 := by
  intro J own
  obtain ⟨steps, calls, final, keep, logged⟩ :=
    @logged_run σ ι ο ε M events write opens F writes keeps is foreign s l
  obtain ⟨text, file, reads⟩ := final_disk start calls F.file
  have there : opens F.file = true := (new_streams start).1.fixed _ F.fixed
  rw [if_pos there] at reads
  refine ⟨steps, ?_⟩
  rw [final, file, List.nil_append, F.readBack_text reads, EventFile.held_logged calls _ rfl keep, logged]

end Runs

end InterchainCommunication.SharedLog
