import Rollout.Proofs.Yaml.Decoding
import Rollout.Secrets.Bundle

/-!
# The text of a bundle

A bundle is read back from the text it is written as, whatever its texts hold. Fields that bundles do
not have are passed over: a text with more of them gives the same bundle.
-/

namespace Rollout.Bundle

open Yaml Decoder

variable {p : Position} {node : Yaml.Node}

def fields (b : Bundle) : List (String × Output) :=
  [("cluster", .map [("id", .text b.id), ("secret", .text b.secret)]),
   ("certs", .map
     [("os", pairOutput b.os), ("admin", pairOutput b.admin), ("k8s", pairOutput b.k8s),
      ("etcd", pairOutput b.etcd)])]

theorem isRecord_pairOutput (pair : KeyPair) : IsRecord (pairOutput pair) :=
  ⟨nofun, by decide, trivial, by decide, trivial, trivial⟩

theorem areFields_fields (b : Bundle) : AreFields b.fields :=
  ⟨by decide, ⟨nofun, by decide, trivial, by decide, trivial, trivial⟩, by decide,
    ⟨nofun, by decide, isRecord_pairOutput b.os, by decide, isRecord_pairOutput b.admin,
      by decide, isRecord_pairOutput b.k8s, by decide, isRecord_pairOutput b.etcd, trivial⟩,
    trivial⟩

/-! ## Decoding -/

theorem keyPairDecoder_denotes {pair : KeyPair} {d : Nat} (hdepth : p.depth = d + 1)
    (h : Denotes node (pairOutput pair)) : keyPairDecoder p node = pure pair := by
  obtain _ | _ | _ | ⟨_ | ⟨hcrt, _ | ⟨hkey, _ | _⟩⟩⟩ := h
  refine record_mapping (r := (some pair.crt, some pair.key)) hdepth ?_ rfl
  rw [pairs_known rfl (by decide) (text_denotes hcrt),
    pairs_known rfl (by decide) (text_denotes hkey)]
  rfl

theorem identityDecoder_denotes {id secret : String} {d : Nat} (hdepth : p.depth = d + 1)
    (h : Denotes node (.map [("id", .text id), ("secret", .text secret)])) :
    identityDecoder p node = pure (id, secret) := by
  obtain _ | _ | _ | ⟨_ | ⟨hid, _ | ⟨hsecret, _ | _⟩⟩⟩ := h
  refine record_mapping (r := (some id, some secret)) hdepth ?_ rfl
  rw [pairs_known rfl (by decide) (text_denotes hid),
    pairs_known rfl (by decide) (text_denotes hsecret)]
  rfl

theorem certsDecoder_denotes {c : Certs} {d : Nat} (hdepth : p.depth = d + 2)
    (h : Denotes node (.map [("os", pairOutput c.os), ("admin", pairOutput c.admin),
      ("k8s", pairOutput c.k8s), ("etcd", pairOutput c.etcd)])) :
    certsDecoder p node = pure c := by
  obtain _ | _ | _ | ⟨_ | ⟨hos, _ | ⟨hadmin, _ | ⟨hk8s, _ | ⟨hetcd, _ | _⟩⟩⟩⟩⟩ := h
  refine record_mapping (r := ⟨some c.os, some c.admin, some c.k8s, some c.etcd⟩) hdepth ?_ rfl
  rw [pairs_known rfl (by decide) (keyPairDecoder_denotes rfl hos),
    pairs_known rfl (by decide) (keyPairDecoder_denotes rfl hadmin),
    pairs_known rfl (by decide) (keyPairDecoder_denotes rfl hk8s),
    pairs_known rfl (by decide) (keyPairDecoder_denotes rfl hetcd)]
  rfl

/-- A bundle is decoded from a tree with its fields and any others behind them. -/
theorem decoder_denotes {b : Bundle} {others : List (String × Output)}
    (hothers : ∀ f ∈ others, f.1 ≠ "cluster" ∧ f.1 ≠ "certs")
    (h : Denotes node (.map (b.fields ++ others))) : decoder {} node = pure b := by
  obtain _ | _ | _ | ⟨_ | ⟨hcluster, _ | ⟨hcerts, hrest⟩⟩⟩ := h
  refine record_mapping (r := (some (b.id, b.secret), some ⟨b.os, b.admin, b.k8s, b.etcd⟩)) rfl ?_
    rfl
  rw [pairs_known rfl (by decide) (identityDecoder_denotes rfl hcluster),
    pairs_known rfl (by decide)
      (certsDecoder_denotes (c := ⟨b.os, b.admin, b.k8s, b.etcd⟩) rfl hcerts)]
  refine pairs_unknown hrest fun f hf => ?_
  simp [Field.of, Ne.symm (hothers f hf).1, Ne.symm (hothers f hf).2]

/-! ## Reading -/

/-- A text with the fields of a bundle and others that bundles do not have is read as the bundle. -/
theorem parse_write {b : Bundle} (others : List (String × Output)) (hfields : AreFields others)
    (hothers : ∀ f ∈ others, f.1 ≠ "cluster" ∧ f.1 ≠ "certs") :
    parse (.ofText (Output.map (b.fields ++ others)).write) = .ok b := by
  have hread := decodeOnly_write (List.append_ne_nil_of_left_ne_nil (s := b.fields) nofun others)
    ((areFields_fields b).append hfields) fun node h => decoder_denotes hothers h
  rw [parse, hread]

theorem parse_yaml (b : Bundle) : parse (.ofText b.yaml) = .ok b := by
  have hread := parse_write (b := b) [] trivial nofun
  rwa [List.append_nil] at hread

end Rollout.Bundle
