import ServerDeploy.Text.Split

/-! Web addresses: their parts, the form in which they are asked for, and references from one to
another. -/

namespace ServerDeploy

structure Url where
  scheme : List Char
  authority : List Char
  path : List Char
  query : Option (List Char)
  fragment : Option (List Char)
  deriving DecidableEq, Repr, Inhabited

namespace Url

def isSchemeChar (c : Char) : Bool := c.isAlphanum || c == '+' || c == '.' || c == '-'

/-- The scheme of a text and the rest after its colon. -/
def cutScheme (cs : List Char) : List Char × List Char :=
  match cutAtChar ':' cs with
  | (scheme, some rest) =>
    if scheme.all isSchemeChar && (scheme.head?.all Char.isAlpha) then (scheme, rest) else ([], cs)
  | (_, none) => ([], cs)

/-- The authority of a text after its scheme, and the rest. -/
def cutAuthority (cs : List Char) : List Char × List Char :=
  match cs with
  | '/' :: '/' :: rest =>
    let inAuthority (c : Char) : Bool := c != '/' && c != '?' && c != '#'
    (rest.takeWhile inAuthority, rest.dropWhile inAuthority)
  | cs => ([], cs)

def ofText (s : String) : Url :=
  let (scheme, rest) := cutScheme s.toList
  let (authority, rest) := cutAuthority rest
  let (rest, fragment) := cutAtChar '#' rest
  let (path, query) := cutAtChar '?' rest
  ⟨scheme, authority, path, query, fragment⟩

/-- Some text with a mark in front, if there is any. -/
def marked (mark : Char) : Option (List Char) → List Char
  | some cs => mark :: cs
  | none => []

def text (u : Url) : String :=
  String.ofList ((if u.scheme.isEmpty then [] else u.scheme ++ [':']) ++
    (if u.authority.isEmpty then [] else ['/', '/'] ++ u.authority) ++
    u.path ++ marked '?' u.query ++ marked '#' u.fragment)

def defaultPort (scheme : List Char) : Option Nat :=
  match String.ofList scheme with
  | "http" => some 80
  | "https" => some 443
  | "ftp" => some 21
  | _ => none

/-- The port at the end of an authority in its plain form. -/
def normalPort (scheme port : List Char) : List Char :=
  match (String.ofList port).toNat? with
  | some n => if defaultPort scheme == some n then [] else ':' :: (toString n).toList
  | none => if port.isEmpty then [] else ':' :: port

/-- Host names are in lower case, and the default port is left out. -/
def normalAuthority (scheme authority : List Char) : List Char :=
  let afterUser := (authority.reverse.takeWhile (· != '@')).reverse
  let user := authority.take (authority.length - afterUser.length)
  let (host, port) := cutAtChar ':' afterUser
  if afterUser.head? == some '[' then authority
  else user ++ host.map Char.toLower ++ normalPort scheme (port.getD [])

/-- Single points in a path vanish, and two points take away the part before them. -/
def removePoints (path : List Char) : List Char :=
  let parts := splitAtChar '/' path
  joinWith '/' (parts.foldl (fun done part =>
    if part == ['.'] then done
    else if part == ['.', '.'] then (if done == [] || done == [[]] then done else done.dropLast)
    else done ++ [part]) [])

def percentByte (b : UInt8) : List Char :=
  let digit (n : Nat) : Char := Char.ofNat (if n < 10 then 48 + n else 55 + n)
  ['%', digit (b.toNat / 16), digit (b.toNat % 16)]

/-- A character that may not stand in an address, as the percent form of its bytes. -/
def percentChar (c : Char) : List Char :=
  (String.singleton c).toUTF8.toList.flatMap percentByte

def percentText (barred : List Char) (cs : List Char) : List Char :=
  cs.flatMap fun c =>
    if ' ' < c && c < '\x7f' && !barred.contains c then [c] else percentChar c

def normal (u : Url) : Url :=
  let scheme := u.scheme.map Char.toLower
  let path := if scheme.isEmpty && u.authority.isEmpty then u.path else removePoints u.path
  ⟨scheme, normalAuthority scheme u.authority,
    percentText ['"', '#', '<', '>', '?', '`', '\x7b', '\x7d'] path,
    u.query.map (percentText ['"', '#', '<', '>']),
    u.fragment.map (percentText ['"', '<', '>', '`'])⟩

/-- The path that a relative path names, as seen from another one. -/
def resolvePath (base path : List Char) : List Char :=
  let parts :=
    if path.head? == some '/' then splitAtChar '/' path
    else
      let baseParts := splitAtChar '/' base
      let baseParts := if baseParts.getLast? == some [] then baseParts else baseParts.dropLast
      let all := baseParts ++ splitAtChar '/' path
      let middle := (all.drop 1).dropLast.filter fun part => !part.isEmpty
      all.take 1 ++ middle ++ (all.drop 1).drop (all.length - 2)
  let done := parts.foldl (fun (done : List (List Char)) part =>
    if part == ['.', '.'] then done.dropLast
    else if part == ['.'] then done
    else done ++ [part]) []
  let isPoints := parts.getLast? == some ['.'] || parts.getLast? == some ['.', '.']
  let resolved := joinWith '/' (if isPoints then done ++ [[]] else done)
  if resolved.head? == some '/' then resolved else '/' :: resolved

/-- The address without a query or a fragment that says nothing. -/
def withoutEmpty (u : Url) : Url :=
  { u with
    query := u.query.filter fun cs => !cs.isEmpty
    fragment := u.fragment.filter fun cs => !cs.isEmpty }

/-- The address that a reference names, as seen from an address. Without a path of its own it stays at
the path and query of the address; an empty one names the address itself. -/
def resolve (base reference : Url) : Url :=
  let target :=
    if !reference.scheme.isEmpty then
      if reference.authority.isEmpty then { reference with authority := base.authority }
      else reference
    else if !reference.authority.isEmpty then withoutEmpty { reference with scheme := base.scheme }
    else if reference.text.isEmpty then base
    else if reference.path.isEmpty then
      withoutEmpty { base with
        query := if (reference.query.getD []).isEmpty then base.query else reference.query
        fragment := reference.fragment }
    else
      withoutEmpty { base with
        path := resolvePath base.path reference.path
        query := reference.query
        fragment := reference.fragment }
  if (target.fragment.getD []).isEmpty && !(base.fragment.getD []).isEmpty then
    { target with fragment := base.fragment }
  else target

/-- The path part of an address text for naming a file after it. Parameters of the last part are left
out. -/
def filePath (s : String) : String :=
  let cs := s.toList.filter fun c => c != '\t' && c != '\n' && c != '\r'
  let u := ofText (String.ofList (cs.dropWhile fun c => c ≤ ' '))
  let folders := (u.path.reverse.dropWhile (· != '/')).reverse
  let last := u.path.drop folders.length
  String.ofList (folders ++ last.takeWhile (· != ';'))

end Url

end ServerDeploy
