import Mathlib.Data.List.Pairwise
import Mathlib.Data.List.Perm.Basic
import ServerDeploy.Proofs.Json.Members
import ServerDeploy.Model.Operation

/-! Values that are set along paths of member names. What is set is read back along its path, reading
along a path that neither leads through this one nor lies on it sees no difference, and two such paths
can be set in either order. The objects are then equal but for the order of their members. -/

namespace ServerDeploy

namespace Json

/-- What stands at the end of a path of member names. -/
def along? : List String → Json → Option Json
  | [], v => some v
  | name :: rest, v => (v.member? name).bind (along? rest)

theorem along?_obj_cons (name : String) (rest : List String) (members : Members) :
    (obj members).along? (name :: rest) = (members.get? name).bind (along? rest) := rfl

/-- Equal but for the order of members, in the value and in the objects that are its members. -/
inductive Alike : Json → Json → Prop where
  | refl (v : Json) : Alike v v
  | obj {a b : Members} (names : ∀ name, (a.get? name).isSome = (b.get? name).isSome)
      (values : ∀ name v w, a.get? name = some v → b.get? name = some w → Alike v w) :
      Alike (.obj a) (.obj b)

theorem Alike.names {a b : Members} (h : Alike (.obj a) (.obj b)) (name : String) :
    (a.get? name).isSome = (b.get? name).isSome := by
  cases h with
  | refl => rfl
  | obj names values => exact names name

theorem Alike.values {a b : Members} {name : String} {v w : Json} (h : Alike (.obj a) (.obj b))
    (hv : a.get? name = some v) (hw : b.get? name = some w) : Alike v w := by
  cases h with
  | refl =>
    obtain rfl : v = w := Option.some.inj (hv.symm.trans hw)
    exact .refl v
  | obj names values => exact values name v w hv hw

theorem Alike.trans {a b c : Json} (h : Alike a b) (h' : Alike b c) : Alike a c := by
  induction h generalizing c with
  | refl => exact h'
  | @obj a b names values ih =>
    cases h' with
    | refl => exact .obj names values
    | @obj _ c names' values' =>
      refine .obj (fun name => (names name).trans (names' name)) fun name v w hv hw => ?_
      have hsome : (b.get? name).isSome := by rw [← names name, hv]; rfl
      obtain ⟨u, hu⟩ := Option.isSome_iff_exists.1 hsome
      exact ih name v u hv hu (values' name u w hu hw)

theorem alike_of_get? {a b : Members} (h : ∀ name, a.get? name = b.get? name) :
    Alike (.obj a) (.obj b) := by
  refine .obj (fun name => by rw [h name]) fun name v w hv hw => ?_
  obtain rfl : v = w := Option.some.inj (hv.symm.trans ((h name).trans hw))
  exact .refl v

theorem Alike.set {a b : Members} {v w : Json} (h : Alike (.obj a) (.obj b)) (hvalue : Alike v w)
    (name : String) : Alike (.obj (a.set name v)) (.obj (b.set name w)) := by
  refine .obj (fun other => ?_) fun other u u' hu hu' => ?_
  · rcases eq_or_ne other name with rfl | hne
    · rw [Members.get?_set_self, Members.get?_set_self]
      rfl
    · rw [Members.get?_set_of_ne hne, Members.get?_set_of_ne hne]
      exact h.names other
  · rcases eq_or_ne other name with rfl | hne
    · rw [Members.get?_set_self] at hu hu'
      cases hu
      cases hu'
      exact hvalue
    · rw [Members.get?_set_of_ne hne] at hu hu'
      exact h.values hu hu'

end Json

namespace Members

variable (name other : String) (v w : Json) (ms : Members)

theorem set_set_self : (ms.set name v).set name w = ms.set name w := by
  induction ms with
  | nil => simp [Members.set]
  | cons m ms ih =>
    obtain ⟨key, old⟩ := m
    by_cases hkey : key = name
    · simp [Members.set, hkey]
    · simp [Members.set, hkey, ih]

theorem set_comm_alike {name other : String} (h : name ≠ other) :
    Json.Alike (.obj ((ms.set name v).set other w)) (.obj ((ms.set other w).set name v)) := by
  refine Json.alike_of_get? fun key => ?_
  rcases eq_or_ne key other with rfl | hother
  · rw [get?_set_self, get?_set_of_ne (Ne.symm h), get?_set_self]
  · rw [get?_set_of_ne hother]
    rcases eq_or_ne key name with rfl | hname
    · rw [get?_set_self, get?_set_self]
    · rw [get?_set_of_ne hname, get?_set_of_ne hname, get?_set_of_ne hother]

end Members

namespace Operation

/-- Neither path leads through the other. -/
def Apart (p q : List String) : Prop := ¬p <+: q ∧ ¬q <+: p

instance (p q : List String) : Decidable (Apart p q) := inferInstanceAs (Decidable (_ ∧ _))

theorem Apart.symm {p q : List String} (h : Apart p q) : Apart q p := ⟨h.2, h.1⟩

theorem Apart.of_cons {name : String} {p q : List String} (h : Apart (name :: p) (name :: q)) :
    Apart p q :=
  ⟨fun hp => h.1 (List.cons_prefix_cons.2 ⟨rfl, hp⟩),
    fun hq => h.2 (List.cons_prefix_cons.2 ⟨rfl, hq⟩)⟩

theorem Apart.ne_nil_left {p q : List String} (h : Apart p q) : p ≠ [] := by
  rintro rfl
  exact h.1 List.nil_prefix

theorem Apart.ne_nil_right {p q : List String} (h : Apart p q) : q ≠ [] := h.symm.ne_nil_left

/-- The members that a deeper path goes on in: those of the object that is there, or none. -/
def membersOf : Option Json → Members
  | some (.obj members) => members
  | _ => []

theorem membersOf_alike {a b : Members} (h : Json.Alike (.obj a) (.obj b)) (name : String) :
    Json.Alike (.obj (membersOf (a.get? name))) (.obj (membersOf (b.get? name))) := by
  have hnames := h.names name
  cases ha : a.get? name with
  | none =>
    rw [ha] at hnames
    have hnone : b.get? name = none := Option.isNone_iff_eq_none.1 (by simpa using hnames.symm)
    rw [hnone]
    exact .refl _
  | some v =>
    rw [ha] at hnames
    obtain ⟨w, hw⟩ := Option.isSome_iff_exists.1 hnames.symm
    have hvalue := h.values ha hw
    rw [hw]
    cases hvalue with
    | refl => exact .refl _
    | obj names values => exact .obj names values

theorem along?_membersOf {path : List String} (hpath : path ≠ []) (old : Option Json) :
    (Json.obj (membersOf old)).along? path = old.bind (Json.along? path) := by
  obtain ⟨name, rest, rfl⟩ := List.exists_cons_of_ne_nil hpath
  rcases old with _ | (_ | _ | _ | _ | _ | _ | members) <;> rfl

/-- What a member becomes in which a path goes on. -/
def written (value : Json) (old : Option Json) : List String → Json
  | [] => value
  | rest => .obj (setPath value rest (membersOf old))

variable (value : Json)

theorem written_of_ne_nil (old : Option Json) {rest : List String} (h : rest ≠ []) :
    written value old rest = .obj (setPath value rest (membersOf old)) := by
  obtain ⟨next, rest, rfl⟩ := List.exists_cons_of_ne_nil h
  rfl

theorem setPath_cons (name : String) (rest : List String) (members : Members) :
    setPath value (name :: rest) members =
      members.set name (written value (members.get? name) rest) := by
  cases rest with
  | nil => rfl
  | cons next rest => rfl

theorem get?_setPath {value : Json} {path : List String} {name : String} {members : Members}
    (h : path.head? ≠ some name) : (setPath value path members).get? name = members.get? name := by
  cases path with
  | nil => rfl
  | cons key rest =>
    have hne : name ≠ key := fun heq => h (by rw [heq]; rfl)
    rw [setPath_cons, Members.get?_set_of_ne hne]

theorem mem_setPath {path : List String} {members : Members} {m : String × Json}
    (h : m ∈ setPath value path members) : m ∈ members ∨ path.head? = some m.1 := by
  cases path with
  | nil => exact .inl h
  | cons name rest =>
    rw [setPath_cons] at h
    exact (Members.mem_set h).imp_right fun hm => by rw [hm]; rfl

theorem along?_setPath_self : ∀ {path : List String}, path ≠ [] → ∀ members : Members,
    (Json.obj (setPath value path members)).along? path = some value
  | [], h, _ => absurd rfl h
  | [name], _, members => by
    rw [Json.along?_obj_cons, setPath_cons, Members.get?_set_self]
    rfl
  | name :: next :: rest, _, members => by
    rw [Json.along?_obj_cons, setPath_cons, Members.get?_set_self]
    exact along?_setPath_self (List.cons_ne_nil next rest) _

theorem along?_setPath_of_apart : ∀ {path other : List String}, Apart path other →
    ∀ members : Members,
      (Json.obj (setPath value other members)).along? path = (Json.obj members).along? path
  | [], _, h, _ => absurd rfl h.ne_nil_left
  | _, [], h, _ => absurd rfl h.ne_nil_right
  | name :: rest, key :: more, h, members => by
    rw [Json.along?_obj_cons, Json.along?_obj_cons]
    rcases eq_or_ne name key with rfl | hne
    · -- the paths part further on, in the member that both lead into
      have hinner := along?_setPath_of_apart h.of_cons (membersOf (members.get? name))
      rw [along?_membersOf h.of_cons.ne_nil_left] at hinner
      rw [setPath_cons, Members.get?_set_self, written_of_ne_nil _ _ h.of_cons.ne_nil_right]
      exact hinner
    · have hhead : (key :: more).head? ≠ some name := fun hkey => hne (Option.some.inj hkey).symm
      rw [get?_setPath hhead]

theorem alike_setPath : ∀ (path : List String) {a b : Members}, Json.Alike (.obj a) (.obj b) →
    Json.Alike (.obj (setPath value path a)) (.obj (setPath value path b))
  | [], _, _, h => h
  | [name], _, _, h => h.set (.refl value) name
  | name :: next :: rest, _, _, h =>
    h.set (alike_setPath (next :: rest) (membersOf_alike h name)) name

/-- Along paths that are apart, values are set in either order. -/
theorem setPath_comm (value' : Json) : ∀ {path other : List String}, Apart path other →
    ∀ members : Members, Json.Alike (.obj (setPath value' other (setPath value path members)))
      (.obj (setPath value path (setPath value' other members)))
  | [], _, h, _ => absurd rfl h.ne_nil_left
  | _, [], h, _ => absurd rfl h.ne_nil_right
  | name :: rest, key :: more, h, members => by
    rcases eq_or_ne name key with rfl | hne
    · have hinner := setPath_comm value' h.of_cons (membersOf (members.get? name))
      rw [setPath_cons, setPath_cons, setPath_cons, setPath_cons, Members.get?_set_self,
        Members.get?_set_self, Members.set_set_self, Members.set_set_self]
      simp only [written_of_ne_nil _ _ h.of_cons.ne_nil_left,
        written_of_ne_nil _ _ h.of_cons.ne_nil_right]
      exact (Json.Alike.refl (.obj members)).set hinner name
    · rw [setPath_cons, setPath_cons, setPath_cons, setPath_cons,
        Members.get?_set_of_ne hne.symm, Members.get?_set_of_ne hne]
      exact Members.set_comm_alike _ _ _ hne

end Operation

end ServerDeploy
