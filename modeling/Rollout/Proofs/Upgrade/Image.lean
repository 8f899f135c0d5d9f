import Mathlib.Data.List.TakeWhile
import Rollout.Image

/-!
# What an image reference names

A reference that ends with a slash, a schematic and a version names just these, with or without a `v` in
front of the version: no slash follows in which another tag could begin, and the schematic ends at the
colon. What stands before the slash does not matter, even if it has tags of its own.
-/

namespace Rollout

/-- An image reference, in parts: `registry/schematic:version`, where the version may be `marked` by a
`v`. -/
structure TaggedImage where
  registry : String
  schematic : String
  version : String
  marked : Bool
  registry_oneLine : '\n' ∉ registry.toList
  schematic_ne : schematic.toList ≠ []
  schematic_alphanumeric : ∀ c ∈ schematic.toList, InstallerImage.isAlphanumeric c = true
  version_ne : version.toList ≠ []
  version_bare : version.toList.head? ≠ some 'v'
  version_noSlash : '/' ∉ version.toList
  version_oneLine : '\n' ∉ version.toList

namespace TaggedImage

def tag (i : TaggedImage) : String := if i.marked then "v" ++ i.version else i.version

def text (i : TaggedImage) : String := i.registry ++ "/" ++ i.schematic ++ ":" ++ i.tag

end TaggedImage

namespace InstallerImage

variable {s rest schematic version : List Char}

theorem lastTag_eq_none (h : '/' ∉ s) : lastTag s = none := by
  induction s with
  | nil => rfl
  | cons c s ih =>
    rw [List.mem_cons, not_or] at h
    have hslash : (c == '/') = false := beq_eq_false_iff_ne.2 (Ne.symm h.1)
    simp only [lastTag, ih h.2, hslash, Bool.false_eq_true, if_false]

theorem lastTag_append {tag : List Char × List Char} (front : List Char) (hrest : '/' ∉ rest)
    (htag : splitTag rest = some tag) : lastTag (front ++ '/' :: rest) = some tag := by
  induction front with
  | nil => simp [lastTag, lastTag_eq_none hrest, htag]
  | cons c front ih => simp only [List.cons_append, lastTag, ih]

theorem splitTag_append (hschematic : schematic ≠ [])
    (halphanumeric : ∀ c ∈ schematic, isAlphanumeric c = true) (hversion : version ≠ []) :
    splitTag (schematic ++ ':' :: version) = some (schematic, dropV version) := by
  have hcolon : isAlphanumeric ':' = false := by decide
  have htake : (schematic ++ ':' :: version).takeWhile isAlphanumeric = schematic := by
    rw [List.takeWhile_append_of_pos halphanumeric]
    simp [hcolon]
  have hdrop : (schematic ++ ':' :: version).dropWhile isAlphanumeric = ':' :: version := by
    rw [List.dropWhile_append_of_pos halphanumeric]
    simp [hcolon]
  obtain ⟨c, schematic, rfl⟩ := List.exists_cons_of_ne_nil hschematic
  obtain ⟨d, version, rfl⟩ := List.exists_cons_of_ne_nil hversion
  unfold splitTag
  rw [htake, hdrop]
  rfl

theorem dropV_marked (h : version ≠ []) : dropV ('v' :: version) = version := by
  obtain ⟨c, version, rfl⟩ := List.exists_cons_of_ne_nil h
  rfl

theorem dropV_bare (h : version.head? ≠ some 'v') : dropV version = version := by
  unfold dropV
  split
  · simp at h
  · rfl

end InstallerImage

namespace TaggedImage

open InstallerImage

theorem dropV_tag (i : TaggedImage) : dropV i.tag.toList = i.version.toList := by
  unfold tag
  split
  · rw [String.toList_append]
    exact dropV_marked i.version_ne
  · exact dropV_bare i.version_bare

theorem tag_ne (i : TaggedImage) : i.tag.toList ≠ [] := by
  unfold tag
  split
  · simp
  · exact i.version_ne

theorem not_mem_tag (i : TaggedImage) {c : Char} (hv : c ≠ 'v') (h : c ∉ i.version.toList) :
    c ∉ i.tag.toList := by
  unfold tag
  split
  · simpa [hv] using h
  · exact h

theorem not_mem_schematic (i : TaggedImage) {c : Char} (hc : isAlphanumeric c = false) :
    c ∉ i.schematic.toList := by
  intro h
  simp [i.schematic_alphanumeric c h] at hc

/-- Whatever the registry, and whether or not the version is marked, the reference names its schematic
and its version. -/
theorem parse_text (i : TaggedImage) :
    InstallerImage.parse i.text = .ok ⟨i.schematic, i.version⟩ := by
  have htext : i.text.toList =
      i.registry.toList ++ '/' :: (i.schematic.toList ++ ':' :: i.tag.toList) := by
    simp [text]
  have hline : i.text.toList.contains '\n' = false := by
    have hschematic := i.not_mem_schematic (c := '\n') (by decide)
    have htag := i.not_mem_tag (c := '\n') (by decide) i.version_oneLine
    simp [htext, i.registry_oneLine, hschematic, htag]
  have hslash : '/' ∉ i.schematic.toList ++ ':' :: i.tag.toList := by
    have hschematic := i.not_mem_schematic (c := '/') (by decide)
    have htag := i.not_mem_tag (c := '/') (by decide) i.version_noSlash
    simp [hschematic, htag]
  have hsplit := splitTag_append i.schematic_ne i.schematic_alphanumeric i.tag_ne
  unfold InstallerImage.parse
  rw [hline, htext, lastTag_append _ hslash hsplit, i.dropV_tag]
  simp

end TaggedImage
end Rollout
