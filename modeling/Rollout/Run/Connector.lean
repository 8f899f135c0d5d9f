import Rollout.Request
import Rollout.Secrets.Credentials

/-!
# Connecting to a node

A node in maintenance has no certificates yet; any other asks for ours. Which of the two it is shows in a
first handshake, and decides what the connection is protected by: the credentials of the cluster's
secrets, or nothing. The secrets are not touched for a node that does not ask.
-/

namespace Rollout

def managementPort : Nat := 50000

/-- What lies between this program and the nodes. A refusal is told in words. -/
structure Network (σ : Type) where
  /-- A first handshake: does the node ask for a certificate? -/
  probe : σ → (authority name : String) → σ × Except String Bool
  /-- Opens a connection. With credentials each side has to trust the other; without, the certificate
  of the node is not checked. -/
  dial : σ → (authority name : String) → Option Credentials → σ × Except String Unit

/-! ## Names in certificates -/

def isLabelChar (c : Char) : Bool :=
  ('a' ≤ c && c ≤ 'z') || ('A' ≤ c && c ≤ 'Z') || ('0' ≤ c && c ≤ '9') || c == '_' || c == '-'

def isLabel (s : String) : Bool :=
  !s.isEmpty && s.length ≤ 63 && s.toList.all isLabelChar && s.front != '-' && s.back != '-'

/-- Is the last part more than digits? One dot may follow it. -/
def endsInName (labels : List String) : Bool :=
  match labels.reverse with
  | "" :: last :: _ => !last.toList.all Char.isDigit
  | last :: _ => !last.toList.all Char.isDigit
  | [] => false

def isDomainName (s : String) : Bool :=
  let labels := s.splitOn "."
  let parts := if labels.getLast? == some "" then labels.dropLast else labels
  s.utf8ByteSize ≤ 253 && parts.all isLabel && endsInName labels

/-- A node's certificate names it by domain name or by address. -/
def isServerName (s : String) : Bool := isDomainName s || (Address.parse? s).isSome

/-! ## Connections -/

namespace Network

variable {σ : Type}

/-- Connects to a node. `secrets` gives the bundle of the cluster. -/
def connect (net : Network σ) (secrets : σ → σ × Except Error Bundle) (s : σ) (node : Node) :
    σ × Except Error Channel :=
  let authority := node.authority managementPort
  let refused (reason : String) : Except Error Channel := .error (.connect authority reason)
  if !isServerName node.host then (s, refused "invalid dns name")
  else match net.probe s authority node.host with
    | (s, .error reason) => (s, refused reason)
    | (s, .ok false) =>
      match net.dial s authority node.host none with
      | (s, .error reason) => (s, refused reason)
      | (s, .ok ()) => (s, .ok .insecure)
    | (s, .ok true) =>
      match secrets s with
      | (s, .error e) => (s, .error e)
      | (s, .ok bundle) =>
        match Credentials.ofBundle bundle with
        | .error e => (s, .error (.client node.host e.message))
        | .ok credentials =>
          match net.dial s authority node.host (some credentials) with
          | (s, .error reason) => (s, refused reason)
          | (s, .ok ()) => (s, .ok .mutual)

end Network
end Rollout
