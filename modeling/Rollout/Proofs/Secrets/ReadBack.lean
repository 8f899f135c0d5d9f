import Rollout.Proofs.Secrets.FileStore

/-!
# Stored bundles

The text a bundle is stored as is the text of no other bundle, and both kinds of stores make the bundle of it,
whatever the texts of the bundle hold: the text is never blank, so a helper program that hands it out is not
taken to have no bundle.
-/

namespace Rollout

theorem Text.trimChars_ne_nil {c : Char} {s : List Char} (hc : isBlank c = false) :
    trimChars (c :: s) ≠ [] := by
  have hfront : (c :: s).dropWhile isBlank = c :: s := List.dropWhile_cons_of_neg (by simp [hc])
  rw [trimChars, hfront, List.reverse_cons, List.dropWhile_append]
  split <;> simp [hc]

namespace Bundle

theorem head?_yaml (b : Bundle) : b.yaml.toList.head? = some 'c' := by
  simp only [yaml, output, Yaml.Output.write, Yaml.writeValue, Yaml.writeFields, String.toList_ofList]
  rfl

theorem trim_yaml (b : Bundle) : (Text.trim b.yaml).isEmpty = false := by
  obtain ⟨rest, hrest⟩ := List.head?_eq_some_iff.1 b.head?_yaml
  have hne : Text.trimChars b.yaml.toList ≠ [] := hrest ▸ Text.trimChars_ne_nil rfl
  simp [Text.trim, hne]

theorem yaml_injective {b c : Bundle} (h : b.yaml = c.yaml) : b = c := by
  have hb := b.parse_yaml
  rw [h, c.parse_yaml] at hb
  exact (Except.ok.inj hb).symm

theorem helperStore_get {σ : Type} {sys : System σ} {program cluster : String} {s s' : σ} {b : Bundle}
    (h : sys.runHelper s program ["secrets", "get", cluster] none = (s', .ok (.ofText b.yaml))) :
    (helperStore sys program cluster).get s = (s', .ok (some b)) := by
  have hread : (parse (.ofText b.yaml)).map some = .ok (some b) := by
    rw [b.parse_yaml]
    rfl
  simp only [helperStore, h, Bytes.text?_ofText, b.trim_yaml, hread, Bool.false_eq_true, if_false]

/-- What a bundle is stored as is read as the bundle, by itself and from either kind of store. -/
structure ReadsBack (b : Bundle) : Prop where
  parse_yaml : parse (.ofText b.yaml) = .ok b
  unique : ∀ c : Bundle, c.yaml = b.yaml → c = b
  file : ∀ source, FileStore.readBundle source (.ofText b.yaml) = .ok b
  helper : ∀ {σ : Type} (sys : System σ) (program cluster : String) (s s' : σ),
    sys.runHelper s program ["secrets", "get", cluster] none = (s', .ok (.ofText b.yaml)) →
    (helperStore sys program cluster).get s = (s', .ok (some b))

/-- Every bundle is read back. -/
theorem readsBack (b : Bundle) : b.ReadsBack where
  parse_yaml := b.parse_yaml
  unique _ h := yaml_injective h
  file source := FileStore.readBundle_yaml source b
  helper _ _ _ _ _ h := helperStore_get h

end Bundle
end Rollout
