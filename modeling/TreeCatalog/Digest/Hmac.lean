import TreeCatalog.Digest.Sha256
/-! # HMAC-SHA-256

The keyed hash of RFC 2104 over SHA-256: a key longer than a block (64 bytes) is hashed first,
then padded with zeros to a block; the code is the hash of the key masked with `0x5c` followed by
the hash of the key masked with `0x36` and the message. -/

namespace TreeCatalog.Digest

/-- The key as a full block. -/
def keyBlock (key : List UInt8) : List UInt8 :=
  let k := if key.length > 64 then Sha256.hash key else key
  k ++ List.replicate (64 - k.length) 0

/-- The HMAC-SHA-256 code of a message under a key. -/
def hmacSha256 (key msg : List UInt8) : List UInt8 :=
  let k := keyBlock key
  let inner := Sha256.hash (k.map (· ^^^ 0x36) ++ msg)
  Sha256.hash (k.map (· ^^^ 0x5c) ++ inner)

end TreeCatalog.Digest
