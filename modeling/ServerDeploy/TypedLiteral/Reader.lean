import ServerDeploy.TypedLiteral.Token

/-! Typed literals: the syntax in which the server prints its model. Numbers, truth values, quoted
strings, `undefined`, lists in brackets, objects in braces, single properties in parentheses, bytes,
expressions and big numbers; white space may stand between any two tokens. -/

namespace ServerDeploy

namespace TypedLiteral

mutual

/-- A value, after white space. The first argument bounds the nesting; it is never reached when it
exceeds twice the length of the text. -/
def value : Nat → List Char → Except Failure (Json × List Char)
  | 0, cs => .error (.malformed .endOfInput (skipBlanks cs))
  | depth + 1, cs =>
    match skipBlanks cs with
    | [] => .error (.malformed .endOfInput [])
    | c :: rest =>
      if c = '"' then do
        let (s, rest) ← string (c :: rest)
        pure (.str s, rest)
      else if c = '[' then
        match skipBlanks rest with
        | ']' :: after => .ok (.arr [], after)
        | items => do
          let (values, rest) ← listItems depth items
          pure (.arr values, rest)
      else if c = '\x7b' then
        match skipBlanks rest with
        | '\x7d' :: after => .ok (.obj [], after)
        | members => do
          let (members, rest) ← objectMembers depth [] members
          pure (.obj members, rest)
      else if c = '(' then do
        let (name, rest) ← key rest
        let (_, rest) ← arrow rest
        let (v, rest) ← value depth rest
        let (_, rest) ← mark ')' rest
        pure (.obj [(name, v)], rest)
      else if c = '-' ∨ isDigitSign c then number (c :: rest)
      else keyword (c :: rest)

/-- The items of a list up to its closing bracket; there is at least one. -/
def listItems : Nat → List Char → Except Failure (List Json × List Char)
  | 0, cs => .error (.malformed .endOfInput (skipBlanks cs))
  | depth + 1, cs => do
    let (v, rest) ← value depth cs
    match skipBlanks rest with
    | ',' :: after => do
      let (vs, rest) ← listItems depth after
      pure (v :: vs, rest)
    | ']' :: after => pure ([v], after)
    | rest => .error (.malformed .listMark rest)

/-- The members of an object up to its closing brace, set one after the other. -/
def objectMembers : Nat → Members → List Char → Except Failure (Members × List Char)
  | 0, _, cs => .error (.malformed .endOfInput (skipBlanks cs))
  | depth + 1, before, cs => do
    let (name, rest) ← key cs
    let (_, rest) ← arrow rest
    let (v, rest) ← value depth rest
    let members := before.set name v
    match skipBlanks rest with
    | ',' :: after => objectMembers depth members after
    | '\x7d' :: after => pure (members, after)
    | rest => .error (.malformed .objectMark rest)

end

/-- Reads a whole text as one literal. -/
def read (cs : List Char) : Except Failure Json :=
  match value (2 * cs.length + 2) cs with
  | .error failure => .error failure
  | .ok (v, rest) =>
    match skipBlanks rest with
    | [] => .ok v
    | rest => .error (.malformed .trailing rest)

def parse (s : String) : Except Failure Json := read s.toList

end TypedLiteral

end ServerDeploy
