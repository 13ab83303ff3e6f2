import ServerDeploy.World.FileAccess
import ServerDeploy.World.Url

/-! Downloads. A file is written beside its place and moved there when it is complete. -/

namespace ServerDeploy

/-- A response to a download: its status and its body, which may have broken off. -/
structure Fetched where
  status : Nat
  content : Content
  brokenBy : Option Fault
  deriving Repr

namespace Run

variable {σ : Type}

/-- The statuses that send on to another place. -/
def isRedirect (status : Nat) : Bool := [301, 302, 303, 307, 308].contains status

def noDownload : Download := .served 404 none (.text "")

def ask (u : Url) : Run σ Download :=
  modifyGet fun w => (w.downloads.headD noDownload,
    { w with urls := w.urls ++ [u.text], downloads := w.downloads.drop 1 })

/-- Asks for an address and for those it is sent on to, up to a number of times. -/
def fetchFrom : Nat → Url → Run σ Fetched
  | 0, _ => throw .redirectLimit
  | left + 1, u => do
    match ← ask u with
    | .lost fault => throw fault
    | .broken received fault => pure ⟨200, .text received, some fault⟩
    | .served status location content =>
      match location with
      | some place =>
        if isRedirect status then fetchFrom left ((u.resolve (Url.ofText place).normal).normal)
        else pure ⟨status, content, none⟩
      | none => pure ⟨status, content, none⟩

/-- Asks for an address; it may be sent on twenty times. -/
def fetch (url : String) : Run σ Fetched := fetchFrom 21 (Url.ofText url).normal

def partialName (p : Path) : String := p.name ++ ".part"

/-- Writes the body of a response to its place. What broke off is removed again. -/
def saveFetched (f : Fetched) (target : Path) : Run σ Unit := do
  let part := target.withName (partialName target)
  let write : Run σ Unit := do
    writeContent part f.content
    match f.brokenBy with
    | some fault => throw fault
    | none => pure ()
  tryCatch write fun fault => do
    removeFile part
    throw fault
  renameFile part target.name

end Run

end ServerDeploy
