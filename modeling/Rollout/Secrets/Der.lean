import Rollout.Bytes

/-!
# Keys and certificates in binary form

An object is a tag, a length and a content, and the content of a composed object is a row of objects.
Only the outline of keys and certificates is read here: enough to find the public key in each.
-/

namespace Rollout.Der

structure Element where
  tag : UInt8
  content : Bytes
  deriving DecidableEq, Repr

def integer : UInt8 := 0x02
def bitString : UInt8 := 0x03
def octetString : UInt8 := 0x04
def sequence : UInt8 := 0x30

/-- A length, in one byte or in as many as the first says, and what follows it. -/
def readLength : Bytes → Option (Nat × Bytes)
  | [] => none
  | b :: rest =>
    if b < 0x80 then some (b.toNat, rest)
    else
      let n := b.toNat - 128
      let digits := rest.take n
      if n = 0 ∨ 4 < n ∨ digits.length < n then none
      else some (digits.foldl (fun v d => 256 * v + d.toNat) 0, rest.drop n)

/-- The object that stands here, and what follows it. -/
def read : Bytes → Option (Element × Bytes)
  | [] => none
  | tag :: rest =>
    match readLength rest with
    | none => none
    | some (n, rest) =>
      if rest.length < n then none else some (⟨tag, rest.take n⟩, rest.drop n)

/-- The object with this tag that stands here. -/
def expect (tag : UInt8) (b : Bytes) : Option (Bytes × Bytes) :=
  match read b with
  | some (e, rest) => if e.tag = tag then some (e.content, rest) else none
  | none => none

/-- The content of an object that is all there is. -/
def whole (tag : UInt8) (b : Bytes) : Option Bytes :=
  match expect tag b with
  | some (content, []) => some content
  | _ => none

def skip (tag : UInt8) (b : Bytes) : Bytes :=
  match expect tag b with
  | some (_, rest) => rest
  | none => b

/-- A public key: what kind of key it is, and the key. -/
structure PublicKey where
  kind : Bytes
  key : Bytes
  deriving DecidableEq, Repr

/-- The public key of a certificate. It comes after the version, the serial number, the signature's
kind, the issuer, the dates and the subject. -/
def certificateKey? (certificate : Bytes) : Option PublicKey := do
  let outer ← whole sequence certificate
  let (inner, signature) ← expect sequence outer
  let (_, signature) ← expect sequence signature
  let _ ← whole bitString signature
  let (_, rest) ← expect integer (skip 0xA0 inner)
  let (_, rest) ← expect sequence rest
  let (_, rest) ← expect sequence rest
  let (_, rest) ← expect sequence rest
  let (_, rest) ← expect sequence rest
  let (key, _) ← expect sequence rest
  let (kind, bits) ← expect sequence key
  return ⟨kind, ← whole bitString bits⟩

/-- A private key, with the public key belonging to it if that is given along. -/
structure PrivateKey where
  publicKey : Option Bytes
  deriving DecidableEq, Repr

/-- An elliptic curve key: a version, the secret number, perhaps the curve and the public key. -/
def curveKey? (b : Bytes) : Option PrivateKey := do
  let inner ← whole sequence b
  let (version, rest) ← expect integer inner
  if version ≠ [1] then none
  let (_, rest) ← expect octetString rest
  return ⟨(expect 0xA1 (skip 0xA0 rest)).bind fun p => whole bitString p.1⟩

/-- A private key of any kind, wrapped with its kind or a bare elliptic curve key. -/
def privateKey? (b : Bytes) : Option PrivateKey :=
  (curveKey? b).or do
    let inner ← whole sequence b
    let (version, rest) ← expect integer inner
    if version ≠ [0] then none
    let (_, rest) ← expect sequence rest
    let (key, _) ← expect octetString rest
    return (curveKey? key).getD ⟨none⟩

/-- Can the private key be the one of the certificate? -/
def belongs (key : PrivateKey) (certificate : PublicKey) : Bool :=
  key.publicKey.all (· == certificate.key)

end Rollout.Der
