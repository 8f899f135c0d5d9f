import Rollout.Secrets.Bundle
import Rollout.Secrets.Der
import Rollout.Secrets.Pem

/-!
# Credentials

What a bundle gives for talking to a node: the authorities a node's certificate has to be signed by,
and the certificate and key shown to the node.
-/

namespace Rollout

structure Credentials where
  roots : List Bytes
  /-- The certificate shown, and those that vouch for it. -/
  chain : List Bytes
  key : Bytes
  deriving DecidableEq, Repr

namespace Credentials

def protocols : List String := ["h2"]

/-- The certificates of a text, of which there has to be one. -/
def certificates (text : String) : Except Error (List Bytes) :=
  match Pem.certificates text with
  | .error p => .error (.secrets s!"read certificate: {p.text}")
  | .ok [] => .error (.secrets "no certificate found in PEM data")
  | .ok found => .ok found

def privateKey (text : String) : Except Error Bytes :=
  match Pem.privateKey text with
  | .error p => .error (.secrets s!"read admin key: {p.text}")
  | .ok none => .error (.secrets "admin key is missing")
  | .ok (some key) => .ok key

def refused {α : Type} (reason : String) : Except Error α := .error (.config s!"tls: {reason}")

/-- An authority has to be a certificate. -/
def checkRoot (root : Bytes) : Except Error Unit :=
  match Der.certificateKey? root with
  | some _ => .ok ()
  | none => refused "invalid peer certificate: BadEncoding"

def checkRoots : List Bytes → Except Error Unit
  | [] => .ok ()
  | root :: rest => do
    checkRoot root
    checkRoots rest

/-- The key has to be one, and the one of the first certificate of the chain. -/
def checkKey (chain : List Bytes) (key : Bytes) : Except Error Unit :=
  match Der.privateKey? key, chain.head?.bind Der.certificateKey? with
  | none, _ => refused "unexpected error: failed to parse private key"
  | some _, none => refused "invalid peer certificate: BadEncoding"
  | some k, some c =>
    if Der.belongs k c then .ok () else refused "keys may not be consistent: KeyMismatch"

def ofBundle (b : Bundle) : Except Error Credentials := do
  let roots ← certificates b.os.crt
  checkRoots roots
  let chain ← certificates b.admin.crt
  let key ← privateKey b.admin.key
  checkKey chain key
  return { roots, chain, key }

end Credentials
end Rollout
