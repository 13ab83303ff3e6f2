import ServerDeploy.CommandLine.Program
import ServerDeploy.Proofs.Goal.Endings
import ServerDeploy.Rehearsal.Script

/-! How runs of the program end. Errors meant for the operator and interrupts of the goal are noted and
become exit codes. All other faults end the run; how far the goal reaches tells which there are. -/

namespace ServerDeploy

open Fault World Run

variable {σ : Type} {I : World σ → Prop}

namespace Log

/-- The faults of a level, a number or a file that logging cannot use. -/
def Unusable : Fault → Prop
  | .value _ | .system _ => True
  | _ => False

theorem leads_openFile (hI : Steady I) (p : Path) :
    Leads Unusable I (openFile p : Run σ Path) (fun _ => I) I := by
  refine leads_get.bind fun w => (leads_findEntry _).bind fun found => ?_
  split
  · exact leads_pure fun _ hw => hw
  · exact leads_throw trivial
  · exact (leads_changeFiles hI (fun _ => trivial) _).bind fun _ => leads_pure fun _ hw => hw

/-- Logging changes nothing but files, and has no fault that would be reported for a goal. -/
theorem leads_setUp (hI : Steady I) (level : Option Int) (toFile : Bool) :
    Leads Unusable I (setUp level toFile : Run σ Setup) (fun _ => I) I := by
  have settled (level : Level) : Fails Unusable (settable level) := by
    cases level with
    | number n => exact fails_ok n
    | layout text => exact fails_error trivial
  have numbered (s : String) : Fails Unusable (Settings.integerOf s) :=
    Settings.fails_integerOf (fun _ => trivial) s
  have limited (setting? : String → Option String) : Fails Unusable (limits setting?) :=
    (numbered _).bind fun _ => (numbered _).bind fun _ => fails_ok _
  refine leads_get.bind fun w => (leads_ofExcept (settled _)).bind fun console => ?_
  split
  · exact leads_pure fun _ hw => hw
  refine (leads_ofExcept (limited _)).bind fun _ => ?_
  refine (leads_changeFiles hI (fun _ => trivial) _).bind fun _ => ?_
  refine (leads_openFile hI _).bind fun main => (leads_openFile hI _).bind fun timing => ?_
  exact leads_pure fun _ hw => hw

theorem levelOf_of_unset (setting? : String → Option String)
    (h : setting? "JBOSS_DEPLOY_LOG_LEVEL" = none) : levelOf setting? = .number infoLevel := by
  have hname : "INFO".map capital = "INFO" := by
    rw [← String.toList_inj, String.toList_map]
    decide
  unfold levelOf
  rw [h, Option.getD_none, hname]
  rfl

end Log

namespace CommandLine

/-- Printing ends well and leaves the notices alone. -/
theorem printResult_apply (r : GoalResult) (w : World σ) : ∃ w',
    (printResult r : Run σ Unit) w = (.ok (), w') ∧ w'.terminal.notices = w.terminal.notices := by
  have printed (bs : List Batch) (w : World σ) : ∃ w',
      (printBatches bs : Run σ Unit) w = (.ok (), w') ∧ w'.terminal.notices = w.terminal.notices := by
    induction bs generalizing w with
    | nil => exact ⟨w, rfl, rfl⟩
    | cons b rest ih =>
      obtain ⟨w', hrest, hnotices⟩ :=
        ih { w with terminal := w.terminal.print ((batchJson b).writeLines 0) }
      exact ⟨w', hrest, hnotices⟩
  unfold printResult
  split
  · split
    · exact printed _ w
    · exact ⟨w, rfl, rfl⟩
  · exact ⟨w, rfl, rfl⟩

/-- How a run concludes once its labor has ended, and what it notes for the operator. -/
def conclusion (goal : GoalName) : Except Fault GoalResult → Except Fault Nat × List String
  | .ok _ => (.ok 0, [])
  | .error (.deploy e) =>
    (.ok 1, ["Could not execute goal " ++ goal.text ++ ". Reason: " ++ e.message])
  | .error .interrupted => (.ok 130, ["Goal " ++ goal.text ++ " interrupted by user"])
  | .error e => (.error e, [])

/-- A fault that is reported for a goal: an error meant for the operator, or an interrupt. -/
def IsReported (e : Fault) : Prop := e = .interrupted ∨ ∃ d, e = .deploy d

theorem conclusion_of_not_reported (goal : GoalName) {e : Fault} (h : ¬IsReported e) :
    conclusion goal (.error e) = (.error e, []) := by
  cases e with
  | deploy d => exact absurd (.inr ⟨d, rfl⟩) h
  | interrupted => exact absurd (.inl rfl) h
  | _ => rfl

theorem not_reported_of_unusable {e : Fault} (h : Log.Unusable e) : ¬IsReported e := by
  rintro (rfl | ⟨d, rfl⟩)
  · exact h
  · exact h

/-- The exit codes are those of labor that ended well or in a fault that is reported. -/
theorem conclusion_exits (goal : GoalName) (r : Except Fault GoalResult) :
    (∃ code, (conclusion goal r).1 = .ok code ∧ (code = 0 ∨ code = 1 ∨ code = 130)) ↔
      ∀ e, r = .error e → IsReported e := by
  cases r with
  | ok result => exact ⟨fun _ => nofun, fun _ => ⟨0, rfl, .inl rfl⟩⟩
  | error e =>
    by_cases he : IsReported e
    · refine ⟨fun _ e' he' => Except.error.inj he' ▸ he, fun _ => ?_⟩
      rcases he with rfl | ⟨d, rfl⟩
      · exact ⟨130, rfl, .inr (.inr rfl)⟩
      · exact ⟨1, rfl, .inr (.inl rfl)⟩
    · rw [conclusion_of_not_reported goal he]
      exact ⟨nofun, fun h => absurd (h e rfl) he⟩

/-- What ends a run is what ended its labor, unless that is reported. -/
theorem conclusion_error (goal : GoalName) (r : Except Fault GoalResult) (e : Fault) :
    (conclusion goal r).1 = .error e ↔ r = .error e ∧ ¬IsReported e := by
  refine ⟨fun h => ?_, fun ⟨hr, he⟩ => by rw [hr, conclusion_of_not_reported goal he]⟩
  cases r with
  | ok result => cases h
  | error e' =>
    by_cases he : IsReported e'
    · rcases he with rfl | ⟨d, rfl⟩ <;> cases h
    · rw [conclusion_of_not_reported goal he] at h
      cases h
      exact ⟨rfl, he⟩

variable [Endpoint σ]

/-- What accepted arguments ask for: logging is set up, and the goal that they select is run. -/
def labor (a : Arguments) : Run σ GoalResult := do
  let level := if a.given.has "--verbose" then some Log.debugLevel else none
  let _ ← Log.setUp level !(a.given.has "--no-log-file")
  let goal ← Goal.select a
  goal.run

/-- What a run comes to, given how the labor in it ended. -/
structure Concludes (a : Arguments) (ended : Except Fault Nat × World σ)
    (labor : Except Fault GoalResult × World σ) : Prop where
  code : ended.1 = (conclusion a.goal labor.1).1
  notices : ended.2.terminal.notices = labor.2.terminal.notices ++ (conclusion a.goal labor.1).2

theorem runGoal_concludes (a : Arguments) (w : World σ) :
    Concludes a (runGoal a w) ((do let goal ← Goal.select a; goal.run : Run σ GoalResult) w) := by
  unfold runGoal
  rw [bind_of_ok (outcome_apply _ w)]
  rcases hwork : (do let goal ← Goal.select a; goal.run : Run σ GoalResult) w with ⟨e | result, w'⟩
  · cases e with
    | deploy d => exact ⟨rfl, rfl⟩
    | interrupted => exact ⟨rfl, rfl⟩
    | _ => exact ⟨rfl, (List.append_nil _).symm⟩
  · obtain ⟨w'', hprint, hnotices⟩ := printResult_apply result w'
    dsimp only
    rw [bind_of_ok hprint]
    exact ⟨rfl, by simpa [conclusion] using hnotices⟩

/-- The labor of a goal has no faults but those within its reach. -/
theorem leads_labor (a : Arguments) :
    Leads (In a.goal.reach) World.Initial (labor a : Run σ GoalResult) (fun _ _ => True)
      fun _ => True := by
  have usable (e : Fault) (h : Log.Unusable e) : e.In a.goal.reach := by
    refine In.of_server ?_ _
    cases e <;> trivial
  have logged (level : Option Int) (toFile : Bool) :
      Leads (In a.goal.reach) World.Initial (Log.setUp level toFile : Run σ Log.Setup)
        (fun _ => World.Initial) fun _ => True :=
    ((Log.leads_setUp steady_initial level toFile).within usable).mono (fun _ _ h => h)
      fun _ _ => trivial
  have selected : Leads (In a.goal.reach) World.Initial (Goal.select a : Run σ Goal)
      (fun g w => w.Initial ∧ ∀ e : Fault, e.In g.task.reach → e.In a.goal.reach) fun _ => True :=
    (Goal.leads_select a).mono (fun _ _ h => h) fun _ _ => trivial
  unfold labor
  refine (logged _ _).bind fun _ => selected.bind fun g => ⟨fun w hw => ?_⟩
  exact ((Goal.leads_run g).ended w hw.1).mono (fun _ _ _ => trivial) (fun _ _ => trivial) hw.2

theorem run_concludes_labor {arguments : List String} {a : Arguments} (ha : read arguments = .ok a)
    (w : World σ) : Concludes a (run arguments w) (labor a w) := by
  have hread : (Run.ofExcept (read arguments) : Run σ Arguments) w = (.ok a, w) := by
    rw [ofExcept_apply, ha]
  unfold run labor
  rw [bind_of_ok hread]
  generalize (if a.given.has "--verbose" then some Log.debugLevel else none) = level
  have hlogging := (Log.leads_setUp (I := fun _ => True) (fun _ _ _ _ => trivial) level
    !(a.given.has "--no-log-file")).ended w trivial
  rw [bind_apply, bind_apply]
  rcases hb : Log.setUp level (!(a.given.has "--no-log-file")) w with ⟨e | s, w'⟩
  · rw [hb] at hlogging
    have hconclusion := conclusion_of_not_reported a.goal (not_reported_of_unusable hlogging.2)
    exact ⟨(congrArg Prod.fst hconclusion).symm, by rw [hconclusion, List.append_nil]⟩
  · exact runGoal_concludes a w'

/-- However the labor of accepted arguments ends, its fault is within the reach of the goal, where a
closed session never is. A run gives one of its three exit codes exactly when the labor ended well or
in a fault that is reported, with a notice of it; every other fault ends the run as it is. -/
theorem run_concludes {arguments : List String} {a : Arguments} (ha : read arguments = .ok a)
    {w : World σ} (hw : w.Initial) :
    (run arguments w).1 = (conclusion a.goal (labor a w).1).1 ∧
      (run arguments w).2.terminal.notices =
        (labor a w).2.terminal.notices ++ (conclusion a.goal (labor a w).1).2 ∧
      ((∃ code, (run arguments w).1 = .ok code ∧ (code = 0 ∨ code = 1 ∨ code = 130)) ↔
        ∀ e, (labor a w).1 = .error e → IsReported e) ∧
      (∀ e, (labor a w).1 = .error e → e.In a.goal.reach) ∧
      ∀ e, (run arguments w).1 = .error e ↔ (labor a w).1 = .error e ∧ ¬IsReported e := by
  obtain ⟨hcode, hnotices⟩ := run_concludes_labor ha w
  refine ⟨hcode, hnotices, ?_, fun e he => ?_, fun e => ?_⟩
  · rw [hcode]
    exact conclusion_exits _ _
  · have hended := (leads_labor a).ended w hw
    rcases hb : labor a w with ⟨e' | result, w'⟩
    · rw [hb] at hended he
      exact Except.error.inj he ▸ hended.2
    · rw [hb] at he
      cases he
  · rw [hcode]
    exact conclusion_error _ _ e

theorem in_of_downloadOf (v : Json) (fault : Fault)
    (h : (Rehearsal.downloadOf v).fault? = some fault) : fault.In .repositories := by
  unfold Rehearsal.downloadOf at h
  dsimp only at h
  split at h
  · cases h
    exact nofun
  · cases h
    trivial
  · cases h
  · cases h

/-- Whatever a script says, a rehearsal starts with nothing made or sent. -/
theorem initial_worldOf (root : Path) (script : Json) : (Rehearsal.worldOf root script).Initial := by
  refine ⟨⟨rfl, rfl, rfl, rfl⟩, ⟨fun fault h => ?_, fun fault h => ?_, fun d hd fault h => ?_⟩⟩
  · obtain ⟨v, -, hv⟩ := List.mem_map.1 h
    unfold Rehearsal.lookupOf at hv
    split at hv <;> cases hv
  · obtain ⟨s, -, hs⟩ := List.mem_map.1 h
    cases hs
  · obtain ⟨v, -, rfl⟩ := List.mem_map.1 hd
    exact in_of_downloadOf v fault h

/-- A port in the environment that is no number. -/
def misconfigured : World Script :=
  Rehearsal.worldOf (.ofText "/work")
    (.obj [("env", .obj [("JBOSS_DEPLOY_PORT", .str "abc")]), ("responses", .arr [])])

def shuttingDown : Arguments := ⟨.shutdown, ⟨[("--no-log-file", .on)], none, false⟩⟩

def portFault : Fault := .value "invalid literal for int() with base 10: 'abc'"

theorem labor_misconfigured : (labor shuttingDown misconfigured).1 = .error portFault := by
  have hlevel := Log.levelOf_of_unset misconfigured.setting? rfl
  have hlog : Log.setUp none false misconfigured =
      (.ok ⟨[.console Log.infoLevel], [.silent]⟩, misconfigured) := by
    unfold Log.setUp
    rw [bind_of_ok (get_apply misconfigured)]
    dsimp only
    rw [hlevel]
    rfl
  have hselect : (Goal.select shuttingDown misconfigured).1 = .error portFault := by rfl
  change ((Log.setUp none false >>= fun _ =>
    Goal.select shuttingDown >>= Goal.run) misconfigured).1 = _
  rw [bind_of_ok hlog, bind_apply]
  rcases hb : Goal.select shuttingDown misconfigured with ⟨e | g, w'⟩
  · rw [hb] at hselect
    exact congrArg _ (Except.error.inj hselect)
  · rw [hb] at hselect
    cases hselect

theorem run_concludes_misconfigured :
    read ["shutdown", "--no-log-file"] = .ok shuttingDown ∧ misconfigured.Initial ∧
      (run ["shutdown", "--no-log-file"] misconfigured).1 = .error portFault ∧
      ¬∃ code, (run ["shutdown", "--no-log-file"] misconfigured).1 = .ok code ∧
        (code = 0 ∨ code = 1 ∨ code = 130) := by
  have hread : read ["shutdown", "--no-log-file"] = .ok shuttingDown := by rfl
  have hworld : misconfigured.Initial := initial_worldOf _ _
  obtain ⟨-, -, hexits, -, hends⟩ := run_concludes hread hworld
  have hreported : ¬IsReported portFault := by
    rintro (h | ⟨d, h⟩) <;> cases h
  refine ⟨hread, hworld, (hends _).2 ⟨labor_misconfigured, hreported⟩, fun h => ?_⟩
  exact hreported (hexits.1 h _ labor_misconfigured)

end CommandLine

end ServerDeploy
