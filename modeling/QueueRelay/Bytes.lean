/-!
Payloads are arrays of bytes, compared as the core library compares them.

Other libraries bring a decision procedure of their own for the equality of byte arrays.  It
comes to the same, but the one below goes first, so that every record with a payload is
compared in one way wherever it is used.
-/
namespace QueueRelay

instance (priority := 2000) decidableEqBytes : DecidableEq ByteArray :=
  ByteArray.instDecidableEq

end QueueRelay
