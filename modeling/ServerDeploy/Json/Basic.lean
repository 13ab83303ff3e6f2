import ServerDeploy.Decimal.Binary64

/-! JSON values as the management protocol uses them. Objects keep the order in which their members
were first written, and integers are of any size. -/

namespace ServerDeploy

inductive Json where
  | null
  | bool (b : Bool)
  | int (n : Int)
  | num (x : Binary64)
  | str (s : String)
  | arr (items : List Json)
  | obj (members : List (String × Json))
  deriving Inhabited, Repr

abbrev Members := List (String × Json)

namespace Members

def get? (name : String) : Members → Option Json
  | [] => none
  | (k, v) :: rest => if k = name then some v else get? name rest

/-- Sets a member. A name that is already there keeps its place, a new one goes to the end. -/
def set (name : String) (value : Json) : Members → Members
  | [] => [(name, value)]
  | (k, v) :: rest => if k = name then (k, value) :: rest else (k, v) :: set name value rest

def setAll (members : Members) (updates : List (String × Json)) : Members :=
  updates.foldl (fun ms (k, v) => Members.set k v ms) members

@[simp] theorem get?_set_self (name : String) (value : Json) (ms : Members) :
    (set name value ms).get? name = some value := by
  induction ms with
  | nil => simp [set, get?]
  | cons m ms ih =>
    obtain ⟨k, v⟩ := m
    by_cases h : k = name <;> simp [set, get?, h, ih]

theorem get?_set_of_ne {name other : String} (h : other ≠ name) (value : Json) (ms : Members) :
    (set name value ms).get? other = ms.get? other := by
  induction ms with
  | nil => simp [set, get?, Ne.symm h]
  | cons m ms ih =>
    obtain ⟨k, v⟩ := m
    by_cases hk : k = name
    · subst hk
      simp [set, get?, Ne.symm h]
    · by_cases ho : k = other
      · subst ho
        simp [set, get?, hk]
      · simp [set, get?, hk, ho, ih]

end Members

namespace Json

mutual

/-- Whether two values are the same, member for member and digit for digit. -/
def same : Json → Json → Bool
  | .null, .null => true
  | .bool a, .bool b => a == b
  | .int a, .int b => a == b
  | .num a, .num b => a == b
  | .str a, .str b => a == b
  | .arr a, .arr b => sameItems a b
  | .obj a, .obj b => sameMembers a b
  | _, _ => false

def sameItems : List Json → List Json → Bool
  | [], [] => true
  | a :: as, b :: bs => same a b && sameItems as bs
  | _, _ => false

def sameMembers : List (String × Json) → List (String × Json) → Bool
  | [], [] => true
  | (k, a) :: as, (l, b) :: bs => k == l && same a b && sameMembers as bs
  | _, _ => false

end

/-- The member of an object; other values have none. -/
def member? (name : String) : Json → Option Json
  | .obj members => Members.get? name members
  | _ => none

/-- Null, false, zero and whatever is empty count as nothing; every other value is something. -/
def isSomething : Json → Bool
  | .null => false
  | .bool b => b
  | .int n => n != 0
  | .num x => !x.isZero
  | .str s => !s.isEmpty
  | .arr items => !items.isEmpty
  | .obj members => !members.isEmpty

def isText (s : String) : Json → Bool
  | .str t => s == t
  | _ => false

end Json

end ServerDeploy
