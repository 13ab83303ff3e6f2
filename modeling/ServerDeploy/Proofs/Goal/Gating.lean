import ServerDeploy.Goal.Basic
import ServerDeploy.Proofs.Session.Survey

/-! What comes before a goal is executed. Its host is looked up and its conditions are checked, and until
they are known to agree nothing is sent but what the check takes. -/

namespace ServerDeploy

open Run Connection

variable {σ : Type} {w : World σ}

namespace Goal

/-- The goal under other conditions. -/
def under (g : Goal) (ifExists ifNotExists : Option String) : Goal :=
  { g with settings := { g.settings with ifExists := ifExists, ifNotExists := ifNotExists } }

def approach (g : Goal) : Run σ Unit := do
  connect g.settings
  let _ ← hostAddress

theorem silent_approach [Endpoint σ] (g : Goal) : Silent (g.approach : Run σ Unit) := by
  have silent_connect : Silent (connect g.settings : Run σ Unit) := fun _ => .quiet rfl rfl rfl rfl
  exact silent_connect.bind fun _ => silent_hostAddress.bind fun _ => silent_pure _

theorem sparing_approach (g : Goal) : Sparing (g.approach : Run σ Unit) := by
  have sparing_connect : Sparing (connect g.settings : Run σ Unit) := fun _ => ⟨rfl, rfl⟩
  exact sparing_connect.bind fun _ => sparing_hostAddress.bind fun _ => (still_pure _).sparing

/-- A host that is found leaves a connection without a client. -/
theorem approach_resolved (g : Goal) {host : String}
    (hhost : w.lookups.headD (.found "127.0.0.1") = .found host) :
    ∃ w₀, g.approach w = (.ok (), w₀) ∧ w₀.connection.client = none := by
  have looked (w : World σ) :
      lookUp w = (.ok (w.lookups.headD (.found "127.0.0.1")), (lookUp w).2) ∧
        (lookUp w).2.connection = w.connection := by
    unfold lookUp
    rw [modifyGet_apply]
    rcases w.lookups with _ | ⟨first, _ | ⟨second, rest⟩⟩ <;> exact ⟨rfl, rfl⟩
  have found {w : World σ} (haddress : w.connection.address = none)
      (hhost : w.lookups.headD (.found "127.0.0.1") = .found host) :
      ∃ w₀, hostAddress w = (.ok host, w₀) ∧ w₀.connection.client = w.connection.client := by
    unfold hostAddress
    rw [bind_of_ok (get_apply w), haddress]
    dsimp only [update]
    rw [bind_of_ok (modify_apply _ w)]
    generalize hw₁ : ({ w with
      connection := { w.connection with state := .resolvingHost } } : World σ) = w₁
    have hlookups : w₁.lookups = w.lookups := by rw [← hw₁]
    have hclient : w₁.connection.client = w.connection.client := by rw [← hw₁]
    obtain ⟨hlookup, hkept⟩ := looked w₁
    rw [hlookups, hhost] at hlookup
    rw [bind_of_ok hlookup, bind_of_ok (modify_apply _ _)]
    dsimp only
    rw [bind_of_ok (modify_apply _ _)]
    exact ⟨_, rfl, by rw [← hclient, ← hkept]⟩
  unfold approach connect
  rw [bind_of_ok (modify_apply _ w)]
  obtain ⟨w₀, haddress, hclient⟩ := found (w := { w with
    remembered := none
    connection := ⟨g.settings.hostname, g.settings.port, .lookup g.settings.user g.settings.password
      g.settings.serverId g.settings.settingsFile, none, none, .unresolved⟩ }) rfl hhost
  rw [bind_of_ok haddress]
  exact ⟨w₀, rfl, hclient⟩

variable [Endpoint σ]

def admission (g : Goal) : Run σ Bool :=
  if g.task.hasPreconditions then checkPreconditions g.settings.ifExists g.settings.ifNotExists
  else pure true

theorem run_apply (g : Goal) : g.run w =
    (g.approach >>= fun _ => andFinally (do
      if ← g.admission then g.task.execute else pure .skipped) close) w := by
  unfold run approach admission
  simp only [bind_assoc]
  rw [bind_apply, bind_apply]
  rcases connect g.settings w with ⟨e | _, w₁⟩
  · rfl
  dsimp only
  rw [bind_apply, bind_apply]
  rcases hostAddress w₁ with ⟨e | host, w₂⟩
  · rfl
  · dsimp only
    split <;> rfl

/-- What is left of a run once it is known whether the goal is admitted. Only then it is executed;
otherwise the connection is closed, and no more is sent or downloaded. -/
def GoesOn (g : Goal) (w w₁ : World σ) : Except Fault Bool → Prop
  | .error e => ∃ w', g.run w = (.error e, w') ∧ w₁.Follows [] w' ∧ w₁.Spares w'
  | .ok false => ∃ w', g.run w = (.ok .skipped, w') ∧ w₁.Follows [] w' ∧ w₁.Spares w'
  | .ok true => g.run w = andFinally g.task.execute close w₁

theorem goesOn_of_admission {g : Goal} {w₀ w₁ : World σ} {verdict : Except Fault Bool}
    (happroach : g.approach w = (.ok (), w₀)) (hadmission : g.admission w₀ = (verdict, w₁)) :
    g.GoesOn w w₁ verdict := by
  have hrun := run_apply (w := w) g
  rw [bind_of_ok happroach] at hrun
  rcases verdict with e | _ | _
  · rw [andFinally_close, bind_apply, hadmission] at hrun
    exact ⟨_, hrun, silent_close w₁, sparing_close w₁⟩
  · rw [andFinally_close, bind_of_ok hadmission, if_neg Bool.false_ne_true] at hrun
    exact ⟨_, hrun, silent_close w₁, sparing_close w₁⟩
  · rw [andFinally_close, bind_of_ok hadmission, if_pos rfl] at hrun
    exact hrun.trans (andFinally_close _ _).symm

/-- Until a goal with one condition is admitted, all that is sent is the look at the launch type and,
to a standalone server, one read of the parent of the address. A goal that needs the resource and one
that needs it to be missing then go opposite ways, on a domain both go on, and a check that fails ends
both; two conditions at once are refused before anything is sent. -/
theorem run_gated {g : Goal} (htask : g.task.hasPreconditions = true) {host : String}
    (hhost : w.lookups.headD (.found "127.0.0.1") = .found host) :
    (∀ existing missing, isGiven existing = true → isGiven missing = true →
      ∃ w', (g.under existing missing).run w = (.error (.configuration .bothConditions), w') ∧
        w.Follows [] w' ∧ w.Spares w') ∧
    ∀ address, isGiven (some address) = true → ∃ r probes reads w₁,
      Surveys address r probes reads ∧ w.Follows (talkOf (probes ++ reads)) w₁ ∧ w.Spares w₁ ∧
      (∀ found, r = .ok (some found) →
        r.map (agrees true) = .ok found ∧ r.map (agrees false) = .ok !found) ∧
      ∀ blank, isGiven blank = false →
        (g.under (some address) blank).GoesOn w w₁ (r.map (agrees true)) ∧
          (g.under blank (some address)).GoesOn w w₁ (r.map (agrees false)) := by
  obtain ⟨w₀, happroach, hclient⟩ := g.approach_resolved hhost
  have hquiet : w.Follows [] w₀ := by
    have hsilent := g.silent_approach w
    rwa [happroach] at hsilent
  have hspared : w.Spares w₀ := g.sparing_approach.of_eq happroach
  have admission (existing missing : Option String) : (g.under existing missing).admission w₀ =
      checkPreconditions existing missing w₀ := by
    unfold admission
    rw [if_pos (show (g.under existing missing).task.hasPreconditions = true from htask)]
    rfl
  constructor
  · intro existing missing hexisting hmissing
    have hrefused : checkPreconditions existing missing w₀ =
        (.error (.configuration .bothConditions), w₀) := by
      unfold checkPreconditions
      rw [if_pos (by simp [hexisting, hmissing])]
      rfl
    obtain ⟨w', hrun, hclosed, hleft⟩ := goesOn_of_admission (g := g.under existing missing)
      happroach ((admission _ _).trans hrefused)
    exact ⟨w', hrun, hquiet.trans hclosed, hspared.trans hleft⟩
  · intro address hgiven
    obtain ⟨probes, reads, hfollows, hsurveys⟩ := survey_surveys hclient address
    refine ⟨_, probes, reads, (survey address w₀).2, hsurveys, by simpa using hquiet.trans hfollows,
      hspared.trans (sparing_survey address w₀), ?_, fun blank hblank => ⟨?_, ?_⟩⟩
    · rintro found hfound
      rw [hfound]
      cases found <;> exact ⟨rfl, rfl⟩
    · exact goesOn_of_admission (g := g.under (some address) blank) happroach
        ((admission _ _).trans (checkPreconditions_existing hgiven hblank w₀))
    · exact goesOn_of_admission (g := g.under blank (some address)) happroach
        ((admission _ _).trans (checkPreconditions_missing hgiven hblank w₀))

/-- A goal that sends one command. -/
def commanding : Goal :=
  ⟨⟨"localhost", 9990, none, none, none, none, .whole 60, none, none⟩,
    .executeCommands ⟨[":read-resource"], false⟩⟩

/-- A standalone server with a logging subsystem. -/
def loggingServer : World Script :=
  World.quiet [
    .answer 200 (.json (.obj [("outcome", .str "success"), ("result", .str "STANDALONE")])),
    .answer 200 (.json (.obj [("outcome", .str "success"),
      ("result", .obj [("subsystem", .obj [("logging", .null)])])]))] (.ofText "/work") (.ofText "/home")

theorem run_gated_logging :
    (∃ w', (commanding.under (some "subsystem=logging") (some "subsystem=mail")).run loggingServer =
      (.error (.configuration .bothConditions), w') ∧ w'.requests = []) ∧
    ∃ r probes reads w₁, Surveys "subsystem=logging" r probes reads ∧
      loggingServer.Follows (talkOf (probes ++ reads)) w₁ ∧
      (commanding.under (some "subsystem=logging") none).GoesOn loggingServer w₁ (r.map (agrees true)) ∧
      (commanding.under none (some "subsystem=logging")).GoesOn loggingServer w₁
        (r.map (agrees false)) := by
  obtain ⟨both, single⟩ := run_gated (g := commanding) (w := loggingServer) rfl rfl
  obtain ⟨w', hrun, hquiet, -⟩ := both (some "subsystem=logging") (some "subsystem=mail") rfl rfl
  obtain ⟨r, probes, reads, w₁, hsurveys, hfollows, -, -, hon⟩ := single "subsystem=logging" rfl
  exact ⟨⟨w', hrun, hquiet.requests.trans rfl⟩, r, probes, reads, w₁, hsurveys, hfollows,
    hon none rfl⟩

example : (((commanding.under none (some "subsystem=logging")).run loggingServer).1 matches
    .ok .skipped) = true := by decide +kernel

end Goal

end ServerDeploy
