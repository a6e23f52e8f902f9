import QueueRelay.Link.Phase
import QueueRelay.LinkError
import QueueRelay.Program
/-!
A link: the one session that its owner holds to a broker or a service.

The owner replaces the session as a whole.  Before a new one is opened the old one is
closed if it still reports itself open, so whatever was tied to it is gone on the other
side too.  Whether a link is live is asked of its session and costs no round trip; a link
that was told of a failure is not live, whatever its session says.

The other side is not known here.  A session is a handle of some type `σ`, and what can be
asked of it is an interface `C` of its own.
-/
namespace QueueRelay

/-- The session that an owner holds, and what became of the ones before. -/
structure Link (σ : Type) where
  /-- The session in use. -/
  session : Option σ := none
  phase : Phase := .disconnected
  /-- Sessions opened so far. -/
  connects : Nat := 0
  /-- Sessions opened after the first. -/
  reconnects : Nat := 0
  /-- Wording of the last failure. -/
  lastError : Option String := none
deriving DecidableEq

namespace Link

variable {C : Interface} {σ : Type}

/-- What the owner of a link can ask. -/
inductive Call (C : Interface) (σ : Type) where
  /-- Open a new session. -/
  | connect
  /-- Does this session report itself open? -/
  | isOpen (s : σ)
  /-- Close this session. -/
  | close (s : σ)
  /-- Make a call of the session's own. -/
  | ask (s : σ) (c : C.Call)

/-- The calls of a link and their answers. -/
abbrev calls (C : Interface) (σ : Type) : Interface where
  Call := Call C σ
  Answer
    | .connect => Except LinkError σ
    | .isOpen _ => Bool
    | .close _ => Except LinkError Unit
    | .ask _ c => C.Answer c

def connect : Program (calls C σ) (Except LinkError σ) :=
  .perform (I := calls C σ) .connect

def isOpen (s : σ) : Program (calls C σ) Bool :=
  .perform (I := calls C σ) (.isOpen s)

def close (s : σ) : Program (calls C σ) (Except LinkError Unit) :=
  .perform (I := calls C σ) (.close s)

def ask (s : σ) (c : C.Call) : Program (calls C σ) (C.Answer c) :=
  .perform (I := calls C σ) (.ask s c)

/-! ### Changes of state -/

/-- After a new session was opened. -/
def opened (l : Link σ) (s : σ) : Link σ where
  session := some s
  phase := l.phase.established
  connects := l.connects + 1
  reconnects := if 0 < l.connects then l.reconnects + 1 else l.reconnects
  lastError := l.lastError

/-- Every session that is opened after the first one counts as a reconnection. -/
theorem reconnects_opened {l : Link σ} {n : Nat} (hc : l.connects = n)
    (hr : l.reconnects = n - 1) (s : σ) : (l.opened s).reconnects = n := by
  show (if 0 < l.connects then l.reconnects + 1 else l.reconnects) = n
  rw [hc, hr]
  split <;> omega

/-- After the attempt to open a new session failed; the old one is gone by then. -/
def refused (l : Link σ) (e : LinkError) : Link σ :=
  { l with session := none, phase := l.phase.failed, lastError := some e.message }

/-- After the attempt to open a new session was given up before it had an answer. -/
def interrupted (l : Link σ) : Link σ :=
  { l with session := none }

/-- After a failure was detected on the session in use. -/
def degraded (l : Link σ) (reason : String) : Link σ :=
  { l with phase := l.phase.failed, lastError := some reason }

/-- After the link was given up. -/
def released (l : Link σ) : Link σ :=
  { l with session := none, phase := l.phase.released }

/-! ### Operations -/

/-- Whether the session may be used. -/
def isLive (l : Link σ) : Program (calls C σ) Bool :=
  if l.phase.isActive then
    match l.session with
    | some s => isOpen s
    | none => return false
  else return false

/-- Closes the session in use if it reports itself open.  That it fails to close changes
nothing: its owner is done with it. -/
def discard (l : Link σ) : Program (calls C σ) Unit :=
  match l.session with
  | some s => do
    if ← isOpen s then
      let _ ← close s
  | none => return ()

/-- Opens a new session in place of the old one. -/
def establish (l : Link σ) : Program (calls C σ) (Except LinkError σ × Link σ) := do
  l.discard
  match ← connect with
  | .ok s => return (.ok s, l.opened s)
  | .error e => return (.error e, l.refused e)

/-- The session in use if the link is live, else a new one. -/
def ensureLive (l : Link σ) : Program (calls C σ) (Except LinkError σ × Link σ) := do
  if ← l.isLive then
    match l.session with
    | some s => return (.ok s, l)
    | none => return (.error .closed, l)
  else l.establish

/-- Closes the session and gives the link up. -/
def release (l : Link σ) : Program (calls C σ) (Link σ) := do
  if let some s := l.session then
    let _ ← close s
  return l.released

/-- The record form of a link to `endpoint`. -/
def form (l : Link σ) (endpoint : String) : String :=
  Text.openRecordForm "ConnectionManager"
    [("endpoint", Text.quoted endpoint), ("state", l.phase.form),
     ("reconnects", toString l.reconnects)]

end Link

end QueueRelay
