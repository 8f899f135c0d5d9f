import Rollout.Error
import Rollout.Yaml.Decode
import Rollout.Yaml.Node.Reading
import Rollout.Yaml.Writing

/-!
# Secrets bundles

The keys of a cluster: its id and secret, and four certificates with their keys, all as text.
-/

namespace Rollout

/-- A certificate and its private key, PEM encoded. -/
structure KeyPair where
  crt : String
  key : String
  deriving DecidableEq, Repr

structure Bundle where
  id : String
  secret : String
  /-- The authority of the node interface. -/
  os : KeyPair
  /-- The certificate this program shows to nodes. -/
  admin : KeyPair
  /-- The authority of the Kubernetes interface. -/
  k8s : KeyPair
  etcd : KeyPair
  deriving DecidableEq, Repr

namespace Bundle

open Yaml Decoder

def keyPairDecoder : Decoder KeyPair :=
  record "struct CertAndKey"
    [.of "crt" text fun v (p : Option String × Option String) => (some v, p.2),
     .of "key" text fun v p => (p.1, some v)]
    (none, none)
    fun p => do
      let crt ← required "crt" p.1
      let key ← required "key" p.2
      return { crt, key }

def identityDecoder : Decoder (String × String) :=
  record "struct ClusterSecrets"
    [.of "id" text fun v (p : Option String × Option String) => (some v, p.2),
     .of "secret" text fun v p => (p.1, some v)]
    (none, none)
    fun p => do
      let id ← required "id" p.1
      let secret ← required "secret" p.2
      return (id, secret)

structure PartialCerts where
  os : Option KeyPair := none
  admin : Option KeyPair := none
  k8s : Option KeyPair := none
  etcd : Option KeyPair := none

structure Certs where
  os : KeyPair
  admin : KeyPair
  k8s : KeyPair
  etcd : KeyPair

def PartialCerts.finish (c : PartialCerts) : Except String Certs := do
  let os ← required "os" c.os
  let admin ← required "admin" c.admin
  let k8s ← required "k8s" c.k8s
  let etcd ← required "etcd" c.etcd
  return { os, admin, k8s, etcd }

def certsDecoder : Decoder Certs :=
  record "struct Certs"
    [.of "os" keyPairDecoder fun v c => { c with os := some v },
     .of "admin" keyPairDecoder fun v c => { c with admin := some v },
     .of "k8s" keyPairDecoder fun v c => { c with k8s := some v },
     .of "etcd" keyPairDecoder fun v c => { c with etcd := some v }]
    {} PartialCerts.finish

def decoder : Decoder Bundle :=
  record "struct SecretsBundle"
    [.of "cluster" identityDecoder
       fun v (p : Option (String × String) × Option Certs) => (some v, p.2),
     .of "certs" certsDecoder fun v p => (p.1, some v)]
    (none, none)
    fun p => do
      let (id, secret) ← required "cluster" p.1
      let certs ← required "certs" p.2
      return ⟨id, secret, certs.os, certs.admin, certs.k8s, certs.etcd⟩

def parse (yaml : Bytes) : Except Error Bundle :=
  match decodeOnly decoder (documentsOf yaml) with
  | .ok bundle => .ok bundle
  | .error problem => .error (.secrets s!"invalid bundle: {problem.message}")

def pairOutput (p : KeyPair) : Output := .map [("crt", .text p.crt), ("key", .text p.key)]

def output (b : Bundle) : Output :=
  .map
    [("cluster", .map [("id", .text b.id), ("secret", .text b.secret)]),
     ("certs", .map
       [("os", pairOutput b.os), ("admin", pairOutput b.admin), ("k8s", pairOutput b.k8s),
        ("etcd", pairOutput b.etcd)])]

def yaml (b : Bundle) : String := b.output.write

/-- What a bundle shows of itself: no secrets. -/
def summary (b : Bundle) : String :=
  "SecretsBundle \x7b cluster_id: " ++ Text.quoted b.id ++ ", .. \x7d"

end Bundle
end Rollout
