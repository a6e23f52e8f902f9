/-!
Credentials that are never shown.
-/
namespace QueueRelay

/-- A credential. -/
structure Secret where
  /-- The credential itself. -/
  value : String
deriving DecidableEq, Inhabited

/-- What stands in its place in a record form. -/
def Secret.form (_ : Secret) : String := "Secret(***)"

end QueueRelay
