import ServerDeploy.Goal.Selection
import ServerDeploy.Proofs.Resource.Stumbling

/-! Readers and builders fail plainly. Whatever text, document or response they are given, there is a
result, an error for the operator, or a value that cannot be converted. -/

namespace ServerDeploy

open Fault

theorem plainly_refused {α : Type} (e : DeployError) : Plainly (.error (.deploy e) : Except Fault α) :=
  fails_error trivial

theorem plainly_shapeless {α : Type} : Plainly (.error .shape : Except Fault α) := fails_error trivial

namespace Settings

theorem fails_integerOf {P : Fault → Prop} (hP : ∀ message, P (.value message)) (s : String) :
    Fails P (integerOf s) := fails_mapError fun refusal => by cases refusal <;> exact hP _

theorem plainly_integerOf (s : String) : Plainly (integerOf s) := fails_integerOf (fun _ => trivial) s

theorem plainly_decimalOf (s : String) : Plainly (decimalOf s) := by
  unfold decimalOf
  split
  · exact fails_ok _
  · exact fails_error trivial

end Settings

theorem ConnectionSettings.plainly_ofEnvironment (setting? : String → Option String)
    (choices : SettingsChoices) : Plainly (ofEnvironment setting? choices) :=
  (Settings.plainly_integerOf _).bind fun _ => (Settings.plainly_decimalOf _).bind fun _ => fails_ok _

namespace Yaml

/-- Text that is no YAML, or a plain fault. -/
def Refusal.Plain : Refusal → Prop
  | .malformed => True
  | .fault f => f.Plain

theorem fails_readBase (base : Nat) (cs : List Char) : Fails Refusal.Plain (readBase base cs) := by
  unfold readBase
  dsimp only
  split
  · exact fails_ok _
  · exact fails_error trivial

theorem fails_readDecimalInteger (cs : List Char) : Fails Refusal.Plain (readDecimalInteger cs) :=
  fails_mapError fun refusal => by cases refusal <;> trivial

theorem fails_readSexagesimal (cs : List Char) : Fails Refusal.Plain (readSexagesimal cs) :=
  fails_foldlM (fun _ group => (fails_readDecimalInteger group).bind fun _ => fails_ok _) _ _

theorem fails_readYamlInteger (text : List Char) : Fails Refusal.Plain (readYamlInteger text) := by
  unfold readYamlInteger
  dsimp only
  split
  · exact fails_error trivial
  · next c rest _ =>
    -- the sign in front decides what is read as digits, and does not matter here
    generalize (if c == '+' || c == '-' then rest else _) = body
    split
    · exact fails_error trivial
    · exact fails_ok _
    · exact ((fails_readBase 2 _).map _).map _
    · exact ((fails_readBase 16 _).map _).map _
    · exact ((fails_readBase 8 _).map _).map _
    · split
      · exact (fails_readSexagesimal _).map _
      · exact (fails_readDecimalInteger _).map _

theorem fails_readYamlDecimal (cs : List Char) : Fails Refusal.Plain (readYamlDecimal cs) := by
  unfold readYamlDecimal
  split
  · exact fails_ok _
  · exact fails_error trivial

theorem fails_readYamlFloat (text : List Char) : Fails Refusal.Plain (readYamlFloat text) := by
  unfold readYamlFloat
  dsimp only
  split
  · exact fails_error trivial
  · next c rest _ =>
    generalize (if c == '+' || c == '-' then rest else _) = body
    split
    · exact fails_ok _
    · exact fails_ok _
    · split
      · exact (fails_mapM fun group _ => fails_readYamlDecimal group).bind fun _ => fails_ok _
      · exact (fails_readYamlDecimal _).map _

theorem fails_checkedDate (year month day : Nat) : Fails Refusal.Plain (checkedDate year month day) := by
  unfold checkedDate
  dsimp only
  split
  · exact fails_error trivial
  split
  · exact fails_error trivial
  split
  · exact fails_error trivial
  · exact fails_ok _

theorem fails_readTimestamp (text : List Char) : Fails Refusal.Plain (readTimestamp text) := by
  unfold readTimestamp
  split
  · exact fails_error trivial
  · refine (fails_checkedDate _ _ _).bind fun date => ?_
    split
    · exact fails_ok _
    · dsimp only
      split
      · exact fails_error trivial
      split
      · exact fails_error trivial
      split
      · exact fails_error trivial
      · exact fails_ok _

theorem fails_readScalar (tag : Tag) (text : List Char) : Fails Refusal.Plain (readScalar tag text) := by
  cases tag with
  | null => exact fails_ok _
  | bool =>
    unfold readScalar
    dsimp only
    split
    · exact fails_ok _
    split
    · exact fails_ok _
    · exact fails_error trivial
  | int => exact (fails_readYamlInteger text).map _
  | float => exact (fails_readYamlFloat text).map _
  | str => exact fails_ok _
  | timestamp => exact fails_readTimestamp text
  | binary =>
    refine Fails.map ?_ _
    unfold readBase64
    dsimp only
    split
    · exact fails_error trivial
    · exact fails_ok _
  | merge => exact fails_error trivial
  | value => exact fails_error trivial
  | seq => exact fails_error trivial
  | map => exact fails_error trivial
  | unknown => exact fails_error trivial

theorem fails_mergedPairs (fuel : Nat) (pairs : List (Node × Node)) :
    Fails Refusal.Plain (mergedPairs fuel pairs) := by
  induction fuel generalizing pairs with
  | zero => exact fails_error trivial
  | succ fuel ih =>
    unfold mergedPairs
    refine (fails_mapM fun p _ => ?_).bind fun brought => fails_ok _
    obtain ⟨k, v⟩ := p
    dsimp only
    split
    · cases v with
      | scalar tag text => exact fails_error trivial
      | mapping tag inner => exact ih inner
      | sequence tag items =>
        refine (fails_mapM fun n _ => ?_).bind fun parts => fails_ok _
        cases n with
        | mapping tag inner => exact ih inner
        | scalar tag text => exact fails_error trivial
        | sequence tag items => exact fails_error trivial
    · exact fails_ok _

theorem fails_document (fuel : Nat) (n : Node) : Fails Refusal.Plain (document fuel n) := by
  induction fuel generalizing n with
  | zero => exact fails_error trivial
  | succ fuel ih =>
    unfold document
    split
    · exact (fails_readScalar _ _).map _
    · exact (fails_mapM fun n _ => ih n).bind fun _ => fails_ok _
    · refine (fails_mergedPairs fuel _).bind fun pairs => ?_
      refine (fails_mapM fun p _ => ?_).bind fun _ => fails_ok _
      refine (ih _).bind fun key => ?_
      split
      · exact (ih _).bind fun _ => fails_ok _
      · exact fails_error trivial
    · exact fails_error trivial
    · exact fails_error trivial

theorem fails_parse (s : String) : Fails Refusal.Plain (parse s) := by
  unfold parse
  dsimp only
  split
  · exact fails_error trivial
  · exact fails_ok _
  · exact fails_document _ _

end Yaml

namespace Resource

theorem plainly_parseText (path : Path) (s : String) : Plainly (parseText path s) := by
  unfold parseText
  split
  · exact plainly_refused _
  · next f hf => exact fails_error (Yaml.fails_parse s _ hf)
  · exact fun f hf => (explained_parse _ f hf).plain

theorem plainly_ofOptions (address : Option String) (options : List String)
    (enable addIfAbsent : Bool) : Plainly (ofOptions address options enable addIfAbsent) := by
  refine Fails.bind (fails_foldlM (fun done option => ?_) _ _) fun _ => fails_ok _
  split
  · split
    · exact plainly_refused _
    · dsimp only
      split
      · exact fails_ok _
      · exact fails_ok _
  · exact plainly_refused _

end Resource

namespace Operation

theorem plainly_setProperty (op : Operation) (key : String) (raw : RawValue) :
    Plainly (setProperty op key raw) := by
  unfold setProperty
  split
  · exact plainly_refused _
  split
  · exact fails_error (plain_unwritable _)
  split
  · exact fails_error (plain_literal _ _)
  · exact fails_ok _

theorem plainly_setProperties (op : Operation) (properties : List (String × RawValue)) :
    Plainly (setProperties op properties) := by
  induction properties generalizing op with
  | nil => exact fails_ok _
  | cons property rest ih =>
    obtain ⟨key, raw⟩ := property
    unfold setProperties
    split
    · next e he => exact fails_error (plainly_setProperty _ _ _ e he)
    · exact ih _

end Operation

namespace Composite

theorem plainly_addStep (c : Composite) (op : Json) : Plainly (c.addStep op) := by
  unfold addStep
  split
  · split
    · split
      · exact fails_ok _
      · exact fails_error trivial
    · exact fails_error trivial
  · exact plainly_shapeless

theorem plainly_addSteps (c : Composite) (ops : List Json) : Plainly (c.addSteps ops) := by
  induction ops generalizing c with
  | nil => exact fails_ok _
  | cons op rest ih =>
    unfold addSteps
    split
    · next e he => exact fails_error (plainly_addStep _ _ e he)
    · exact ih _

end Composite

namespace Resource

theorem plainly_placeAt (profile base own : Option String) : Plainly (placeAt profile base own) := by
  unfold placeAt
  split
  · exact plainly_refused _
  split
  · exact plainly_refused _
  · exact fails_ok _

mutual

theorem plainly_appendNode (profile : Option String) (c : Composite) (text : String)
    (address : Address) : ∀ r : Resource, Plainly (appendNode profile c text address r)
  | .mk own properties enable addIfAbsent children beforeAdd afterAdd => by
    unfold appendNode
    refine (Operation.plainly_setProperties _ _).bind fun op => ?_
    refine (Composite.plainly_addStep _ _).bind fun c => ?_
    refine (plainly_appendChildren profile c text children).bind fun c => ?_
    split
    · exact Composite.plainly_addStep _ _
    · exact fails_ok _

theorem plainly_appendChildren (profile : Option String) (c : Composite) (text : String) :
    ∀ children : List Resource, Plainly (appendChildren profile c text children)
  | [] => by
    unfold appendChildren
    exact fails_ok _
  | child :: rest => by
    unfold appendChildren
    refine (plainly_placeAt _ _ _).bind fun p => ?_
    exact (plainly_appendNode profile c p.1 p.2 child).bind fun c =>
      plainly_appendChildren profile c text rest

end

theorem plainly_composeKnown (r : Resource) (profile : Option String) (force : Bool) (text : String)
    (address : Address) (isThere : Bool) :
    Plainly (composeKnown r profile force text address isThere) := by
  unfold composeKnown
  split
  · exact fails_ok _
  split
  · exact plainly_refused _
  have built (c : Composite) : Plainly (appendNode profile c text address r >>= fun c =>
      pure ⟨address, profile, some c⟩ : Except Fault Composed) :=
    (plainly_appendNode _ _ _ _ r).bind fun c => fails_ok _
  dsimp only
  split
  · exact (Composite.plainly_addStep _ _).bind built
  · exact (fails_ok _).bind built

theorem plainly_knownProfiles (profiles : List String) (known : List Json) :
    Plainly (knownProfiles profiles known) := by
  unfold knownProfiles
  dsimp only
  split
  · exact plainly_shapeless
  split
  · exact fails_ok _
  split
  · exact plainly_shapeless
  · exact plainly_refused _

end Resource

namespace Command

theorem plainly_readParameters (command : String) (parts : List (List Char)) :
    Plainly (readParameters command parts) := by
  have readsValue (cs : List Char) : Plainly (readValue cs) := by
    unfold readValue
    split
    · exact fails_ok _
    · exact fails_ok _
    · exact fails_error trivial
  have readsOne (cs : List Char) : Plainly (readParameter command cs) := by
    unfold readParameter
    dsimp only
    split
    · exact plainly_refused _
    split
    · exact fails_ok _
    · exact (readsValue _).map _
  induction parts with
  | nil => exact fails_ok _
  | cons cs rest ih => exact (readsOne cs).bind fun _ => ih.bind fun _ => fails_ok _

theorem plainly_readRequest (command : String) (cs : List Char) :
    Plainly (readRequest command cs) := by
  unfold readRequest
  split
  · exact fails_ok _
  split
  · exact plainly_refused _
  dsimp only
  split
  · exact fails_ok _
  split
  · exact plainly_refused _
  · exact (plainly_readParameters _ _).map _

theorem plainly_readCommand (command : String) : Plainly (read command) := by
  unfold read
  generalize trimBlanks command.toList = text
  dsimp only
  split
  · exact plainly_refused _
  · exact plainly_refused _
  · exact plainly_refused _
  · split
    · exact plainly_refused _
    · refine (plainly_readRequest _ _).bind fun p => ?_
      split
      · exact plainly_refused _
      · exact fails_ok _

end Command

theorem Hook.plainly_operations (commands : List String) : Plainly (operations commands) := by
  induction commands with
  | nil => exact fails_ok _
  | cons command rest ih =>
    exact (Command.plainly_readCommand command).bind fun _ => ih.bind fun _ => fails_ok _

theorem Outcome.plainly_require (r : Outcome) : Plainly r.require := by
  unfold require
  split
  · exact fails_ok _
  · exact plainly_refused _

theorem Existence.plainly_ofResult (childType childName : String) (result : Json) :
    Plainly (ofResult childType childName result) := by
  unfold ofResult
  dsimp only
  split
  · exact fails_ok _
  refine Fails.map ?_ _
  unfold childNames
  split
  · exact fails_ok _
  · exact fails_ok _
  · exact fails_ok _
  · exact plainly_shapeless

namespace Client

theorem plainly_resultOf (c : Client) (r : Response) : Plainly (c.resultOf r) := by
  unfold resultOf
  dsimp only
  split
  · exact plainly_refused _
  split
  · split
    · split
      · exact fails_ok _
      · exact plainly_refused _
    · exact plainly_refused _
  · split
    · split
      · split
        · exact fails_ok _
        · exact plainly_refused _
      · exact plainly_refused _
    · exact plainly_refused _

theorem plainly_contentHash (r : Outcome) : Plainly (contentHash r) := by
  unfold contentHash
  split
  · split
    · exact fails_ok _
    · exact plainly_shapeless
  · exact plainly_shapeless

theorem plainly_namesOf (v : Json) : Plainly (namesOf v) := by
  unfold namesOf
  dsimp only
  split
  · exact fails_ok _
  split
  · exact fails_ok _
  · exact fails_ok _
  · exact fails_ok _
  · exact plainly_shapeless

end Client

theorem Deployments.plainly_criterion (name pattern : Option String) :
    Plainly (criterion name pattern) := by
  unfold criterion
  split
  · split
    · exact fails_ok _
    · exact plainly_refused _
  · exact fails_ok _
  · exact plainly_refused _

namespace ActionResult

theorem plainly_memberOf (name : String) (v : Json) : Plainly (memberOf name v) := by
  unfold memberOf
  split
  · exact fails_ok _
  · exact plainly_shapeless

theorem plainly_headersRequireRestart (headers : Json) : Plainly (headersRequireRestart headers) := by
  unfold headersRequireRestart
  split
  · exact fails_ok _
  · exact (plainly_memberOf _ _).bind fun _ => (plainly_memberOf _ _).bind fun _ =>
      (plainly_memberOf _ _).bind fun _ => fails_ok _

theorem plainly_segmentsDeployment (segments : List Json) :
    Plainly (segmentsDeployment segments) := by
  have one (segment : Json) : Plainly (segmentDeployment? segment) := by
    unfold segmentDeployment?
    split
    · exact fails_ok _
    · split
      · exact plainly_shapeless
      · exact fails_ok _
    · split
      · exact plainly_shapeless
      · exact fails_ok _
    · exact plainly_shapeless
  induction segments with
  | nil => exact fails_ok _
  | cons segment rest ih =>
    refine (one segment).bind fun name => ?_
    cases name with
    | some name => exact fails_ok _
    | none => exact ih

theorem plainly_stepDeployment (step : Members) : Plainly (stepDeployment step) := by
  unfold stepDeployment
  dsimp only
  split
  · exact fails_ok _
  unfold addressDeployment
  split
  · exact plainly_segmentsDeployment _
  · exact plainly_segmentsDeployment _
  · exact fails_ok _
  · exact plainly_shapeless

theorem plainly_fate (r : Outcome) (entry : Json) : Plainly (fate r entry) := by
  have reported (entry : Json) : Plainly (reportedFate r entry) := by
    refine (plainly_memberOf _ _).bind fun outcome => ?_
    split
    · exact (plainly_memberOf _ _).bind fun _ => fails_ok _
    split
    · exact fails_ok _
    split
    · exact fails_ok _
    refine (plainly_memberOf _ _).bind fun headers => ?_
    refine (plainly_headersRequireRestart _).bind fun ownRestart => ?_
    dsimp only
    split
    · exact fails_ok _
    · exact (plainly_headersRequireRestart _).bind fun _ => fails_ok _
  unfold fate
  split
  · exact fails_ok _
  · exact reported _

theorem plainly_ofResponse (steps : List Json) (r : Outcome) : Plainly (ofResponse steps r) := by
  have one (number : Nat) (step : Json) : Plainly (ofStep r number step) := by
    unfold ofStep
    split
    · exact (plainly_stepDeployment _).bind fun _ => (plainly_fate _ _).bind fun _ => fails_ok _
    · exact plainly_shapeless
  have all (number : Nat) : Plainly (ofSteps r number steps) := by
    induction steps generalizing number with
    | nil => exact fails_ok _
    | cons step rest ih => exact (one number step).bind fun _ => (ih _).bind fun _ => fails_ok _
  exact (all 1).map _

end ActionResult

namespace CredentialStore

theorem plainly_serversOf (path : String) (d : Document) : Plainly (serversOf path d) := by
  unfold serversOf
  dsimp only
  split
  · split
    · exact fails_ok _
    · exact plainly_refused _
  · exact plainly_shapeless

theorem plainly_get? (store : CredentialStore) (serverId : String) : Plainly (store.get? serverId) := by
  unfold get?
  split
  · exact fails_ok _
  · exact fails_ok _
  · exact plainly_shapeless

end CredentialStore

theorem Task.plainly_undeployed (coordinates : Option Coordinates)
    (file name pattern : Option String) : Plainly (undeployed coordinates file name pattern) := by
  unfold undeployed
  dsimp only
  split
  · exact fails_ok _
  split
  · split
    · exact plainly_refused _
    · exact fails_ok _
  split
  · exact fails_ok _
  · exact plainly_refused _

theorem Goal.plainly_coordinatesOf (given : CommandLine.Given) : Plainly (coordinatesOf given) := by
  unfold coordinatesOf
  dsimp only
  split
  · split
    · exact fails_ok _
    · exact plainly_refused _
  split
  · exact fails_ok _
  · exact fails_ok _

end ServerDeploy
