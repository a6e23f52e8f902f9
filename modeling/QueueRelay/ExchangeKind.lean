/-!
Kinds of exchange.
-/
namespace QueueRelay

/-- How an exchange compares a routing key with the keys of its bindings. -/
inductive ExchangeKind where
  /-- The keys have to be equal. -/
  | direct
  /-- Every binding matches. -/
  | fanout
  /-- Equal keys match, and so does the key `#`. -/
  | topic
deriving DecidableEq, Inhabited

namespace ExchangeKind

/-- The kind's name. -/
def name : ExchangeKind → String
  | direct => "direct"
  | fanout => "fanout"
  | topic => "topic"

/-- The kind with the given name. -/
def ofName? (s : String) : Option ExchangeKind :=
  if s = "direct" then some direct
  else if s = "fanout" then some fanout
  else if s = "topic" then some topic
  else none

/-- Whether a binding with key `bound` takes a message published with `key`. -/
def accepts (kind : ExchangeKind) (bound key : String) : Bool :=
  match kind with
  | direct => bound = key
  | fanout => true
  | topic => bound = "#" || bound = key

@[simp] theorem ofName?_name (k : ExchangeKind) : ofName? k.name = some k := by
  cases k <;> rfl

end ExchangeKind

end QueueRelay
