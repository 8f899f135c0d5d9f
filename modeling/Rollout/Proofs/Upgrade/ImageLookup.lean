import Mathlib.Data.List.Basic
import Rollout.MachineConfig

/-!
# The first image wins

Of the documents of a configuration the first that sets an image decides, whatever follows it. A document that
sets none is passed over, whatever its shape, but one that cannot be read before there is an image ends the
search. To set an image a document has to be a record all the way down to it: a mapping with a key that is no
text, or with the name twice, counts as any other shape.
-/

namespace Rollout.MachineConfig

open Yaml

variable {t value : Yaml.Tree} {name image : String}

/-! ## What a document sets -/

/-- The mapping `t` has `value` under the name, among whatever else. -/
inductive Under (name : String) (t value : Yaml.Tree) : Prop
  | intro {pairs key} (hmap : untagged t = .map pairs) (hmem : (key, value) ∈ pairs)
      (hkey : text? key = some name) : Under name t value

/-- The keys of the mapping `t` are texts, and `name` is one of them, once: `value` is under it. -/
inductive RecordField (name : String) (t value : Yaml.Tree) : Prop
  | intro {front key back} (hmap : untagged t = .map (front ++ (key, value) :: back))
      (hkey : text? key = some name)
      (hothers : ∀ p ∈ front ++ back, ∃ other, text? p.1 = some other ∧ other ≠ name) :
      RecordField name t value

/-- Under `machine.install.image` the tree has this text, and it is not empty. -/
inductive NamesImage (t : Yaml.Tree) (image : String) : Prop
  | intro {machine install value} (hmachine : Under "machine" t machine)
      (hinstall : Under "install" machine install) (himage : Under "image" install value)
      (htext : text? value = some image) (hne : image ≠ "") : NamesImage t image

/-- The same where the three mappings on the way are records. -/
inductive SetsImage (t : Yaml.Tree) (image : String) : Prop
  | intro {machine install value} (hmachine : RecordField "machine" t machine)
      (hinstall : RecordField "install" machine install) (himage : RecordField "image" install value)
      (htext : text? value = some image) (hne : image ≠ "") : SetsImage t image

theorem RecordField.under (h : RecordField name t value) : Under name t value := by
  obtain ⟨hmap, hkey, -⟩ := h
  exact ⟨hmap, by simp, hkey⟩

theorem SetsImage.names (h : SetsImage t image) : NamesImage t image := by
  obtain ⟨hmachine, hinstall, himage, htext, hne⟩ := h
  exact ⟨hmachine.under, hinstall.under, himage.under, htext, hne⟩

theorem recordField_of_field? (h : field? name t = some value) : RecordField name t value := by
  unfold field? at h
  split at h
  case h_2 => cases h
  case h_1 pairs hmap =>
  split at h
  case isFalse => cases h
  case isTrue htexts =>
  split at h
  case h_2 => cases h
  case h_1 key found hfilter =>
  cases h
  obtain ⟨front, back, hpairs, hfront, hkey, hback⟩ := List.filter_eq_cons_iff.1 hfilter
  refine .intro (hpairs ▸ hmap) (by simpa using hkey) fun p hp => ?_
  have hmem : p ∈ pairs := by
    rw [hpairs]
    simp only [List.mem_append, List.mem_cons] at hp ⊢
    tauto
  obtain ⟨other, hother⟩ := Option.isSome_iff_exists.1 (List.all_eq_true.1 htexts p hmem)
  refine ⟨other, hother, ?_⟩
  rintro rfl
  rcases List.mem_append.1 hp with hp | hp
  · exact hfront p hp (by simp [hother])
  · exact List.filter_eq_nil_iff.1 hback p hp (by simp [hother])

theorem RecordField.field? (h : RecordField name t value) : field? name t = some value := by
  cases h with
  | @intro front key back hmap hkey hothers =>
  have hnot {pairs : List (Yaml.Tree × Yaml.Tree)} (h : ∀ p ∈ pairs, p ∈ front ++ back) :
      pairs.filter (fun p => text? p.1 == some name) = [] := by
    refine List.filter_eq_nil_iff.2 fun p hp => ?_
    obtain ⟨other, hother, hne⟩ := hothers p (h p hp)
    simp [hother, hne]
  have htexts : (front ++ (key, value) :: back).all (fun p => (text? p.1).isSome) = true := by
    refine List.all_eq_true.2 fun p hp => ?_
    by_cases hthis : p = (key, value)
    · simp [hthis, hkey]
    · obtain ⟨other, hother, -⟩ := hothers p (by simpa [hthis] using hp)
      simp [hother]
  simp only [MachineConfig.field?, hmap, htexts, if_true, List.filter_append, List.filter_cons, hkey,
    beq_self_eq_true, hnot (fun p hp => List.mem_append_left back hp),
    hnot (fun p hp => List.mem_append_right front hp), List.nil_append]

theorem imageIn?_eq_some_iff : imageIn? t = some image ↔ SetsImage t image := by
  constructor
  · intro h
    unfold imageIn? at h
    simp only [Option.bind_eq_bind, Option.bind_eq_some_iff] at h
    obtain ⟨machine, hmachine, install, hinstall, value, himage, text, htext, h⟩ := h
    split at h
    case isTrue => cases h
    case isFalse hne =>
    cases h
    exact ⟨recordField_of_field? hmachine, recordField_of_field? hinstall, recordField_of_field? himage, htext,
      by simpa using hne⟩
  · rintro ⟨hmachine, hinstall, himage, htext, hne⟩
    simp [imageIn?, hmachine.field?, hinstall.field?, himage.field?, htext, hne]

/-! ## The search -/

/-- The document can be read and sets no image. -/
def Imageless (d : Document) : Prop := ∃ t, d.decode Decoder.tree = .ok t ∧ ∀ image, ¬ SetsImage t image

/-- The first document that is not passed over sets this image. -/
inductive Found (docs : List Document) (image : String) : Prop
  | intro {front d back u} (hdocs : docs = front ++ d :: back) (hfront : ∀ e ∈ front, Imageless e)
      (hdecode : d.decode Decoder.tree = .ok u) (hsets : SetsImage u image) : Found docs image

/-- The first document that is not passed over cannot be read. -/
inductive Unreadable (docs : List Document) (problem : Problem) : Prop
  | intro {front d back} (hdocs : docs = front ++ d :: back) (hfront : ∀ e ∈ front, Imageless e)
      (hdecode : d.decode Decoder.tree = .error problem) : Unreadable docs problem

inductive Outcome (docs : List Document) : Except Error String → Prop
  | found {image : String} (h : Found docs image) : Outcome docs (.ok image)
  | unreadable {problem} (h : Unreadable docs problem) :
      Outcome docs (.error (.render s!"invalid machine configuration: {problem.message}"))
  | imageless (h : ∀ d ∈ docs, Imageless d) :
      Outcome docs (.error (.config "machine configuration does not set machine.install.image"))

variable {docs before after rest : List Document} {d : Document} {result : Except Error String}

theorem firstImage_imageless (h : Imageless d) : firstImage (d :: after) = firstImage after := by
  obtain ⟨t, hdecode, hnone⟩ := h
  have himage : imageIn? t = none := by
    rw [Option.eq_none_iff_forall_ne_some]
    exact fun image himage => hnone image (imageIn?_eq_some_iff.1 himage)
  simp only [firstImage, hdecode, himage]

theorem firstImage_append (h : ∀ e ∈ before, Imageless e) :
    firstImage (before ++ after) = firstImage after := by
  induction before with
  | nil => rfl
  | cons d before ih =>
    obtain ⟨hd, hbefore⟩ := List.forall_mem_cons.1 h
    rw [List.cons_append, firstImage_imageless hd, ih hbefore]

theorem Outcome.firstImage_eq (h : Outcome docs result) : firstImage docs = result := by
  cases h with
  | found h =>
    obtain ⟨rfl, hfront, hdecode, hsets⟩ := h
    rw [firstImage_append hfront, firstImage]
    simp only [hdecode, imageIn?_eq_some_iff.2 hsets]
  | unreadable h =>
    obtain ⟨rfl, hfront, hdecode⟩ := h
    rw [firstImage_append hfront, firstImage]
    simp only [hdecode]
  | imageless h =>
    rw [← List.append_nil docs, firstImage_append h]
    rfl

theorem Outcome.cons (hd : Imageless d) (h : Outcome docs result) : Outcome (d :: docs) result := by
  cases h with
  | found h =>
    obtain ⟨rfl, hfront, hdecode, hsets⟩ := h
    exact .found (.intro (List.cons_append ..).symm (List.forall_mem_cons.2 ⟨hd, hfront⟩) hdecode hsets)
  | unreadable h =>
    obtain ⟨rfl, hfront, hdecode⟩ := h
    exact .unreadable (.intro (List.cons_append ..).symm (List.forall_mem_cons.2 ⟨hd, hfront⟩) hdecode)
  | imageless h => exact .imageless (List.forall_mem_cons.2 ⟨hd, h⟩)

theorem outcome_firstImage (docs : List Document) : Outcome docs (firstImage docs) := by
  induction docs with
  | nil => exact .imageless (by simp)
  | cons d docs ih =>
    have hnone : ∀ e ∈ ([] : List Document), Imageless e := by simp
    cases hdecode : d.decode Decoder.tree with
    | error problem =>
      have h : Unreadable (d :: docs) problem := .intro (List.nil_append _).symm hnone hdecode
      rw [(Outcome.unreadable h).firstImage_eq]
      exact .unreadable h
    | ok t =>
      by_cases hsets : ∃ image, SetsImage t image
      · obtain ⟨image, hsets⟩ := hsets
        have h : Found (d :: docs) image := .intro (List.nil_append _).symm hnone hdecode hsets
        rw [(Outcome.found h).firstImage_eq]
        exact .found h
      · have hd : Imageless d := ⟨t, hdecode, fun image h => hsets ⟨image, h⟩⟩
        rw [firstImage_imageless hd]
        exact ih.cons hd

theorem firstImage_eq_iff : firstImage docs = result ↔ Outcome docs result :=
  ⟨fun h => h ▸ outcome_firstImage docs, Outcome.firstImage_eq⟩

/-- A document that sets none may as well not be there. -/
theorem firstImage_drop (h : Imageless d) : firstImage (before ++ d :: after) = firstImage (before ++ after) := by
  induction before with
  | nil => exact firstImage_imageless h
  | cons e before ih => simp only [List.cons_append, firstImage, ih]

/-- Behind a document that sets an image there may be anything. -/
theorem firstImage_behind (hdecode : d.decode Decoder.tree = .ok t) (hsets : SetsImage t image) :
    firstImage (before ++ d :: after) = firstImage (before ++ d :: rest) := by
  induction before with
  | nil => simp only [List.nil_append, firstImage, hdecode, imageIn?_eq_some_iff.2 hsets]
  | cons e before ih => simp only [List.cons_append, firstImage, ih]

/-- The image of a configuration is that of the first document that sets one. What cannot be read counts only in
front of it, and a document of any other shape does not count. -/
theorem first_image_wins (config : Bytes) :
    (∀ image, installerImage config = .ok image ↔ Found (documentsOf config) image) ∧
    (∀ text, installerImage config = .error (.render text) ↔ ∃ problem, Unreadable (documentsOf config) problem ∧
      text = s!"invalid machine configuration: {problem.message}") ∧
    (∀ text, installerImage config = .error (.config text) ↔ (∀ d ∈ documentsOf config, Imageless d) ∧
      text = "machine configuration does not set machine.install.image") ∧
    (∀ e, installerImage config = .error e → (∃ text, e = .render text) ∨ ∃ text, e = .config text) ∧
    (∀ other before d after, documentsOf config = before ++ d :: after → documentsOf other = before ++ after →
      Imageless d → installerImage config = installerImage other) ∧
    ∀ other before d after rest t image, documentsOf config = before ++ d :: after →
      documentsOf other = before ++ d :: rest → d.decode Decoder.tree = .ok t → SetsImage t image →
      installerImage config = installerImage other := by
  refine ⟨fun image => ⟨fun h => ?_, fun h => ?_⟩, fun text => ⟨fun h => ?_, ?_⟩, fun text => ⟨fun h => ?_, ?_⟩,
    fun e h => ?_, ?_, ?_⟩
  · cases firstImage_eq_iff.1 h with
    | found hfound => exact hfound
  · exact (Outcome.found h).firstImage_eq
  · cases firstImage_eq_iff.1 h with
    | unreadable hproblem => exact ⟨_, hproblem, rfl⟩
  · rintro ⟨problem, h, rfl⟩
    exact (Outcome.unreadable h).firstImage_eq
  · cases firstImage_eq_iff.1 h with
    | imageless hnone => exact ⟨hnone, rfl⟩
  · rintro ⟨h, rfl⟩
    exact (Outcome.imageless h).firstImage_eq
  · cases firstImage_eq_iff.1 h with
    | unreadable => exact .inl ⟨_, rfl⟩
    | imageless => exact .inr ⟨_, rfl⟩
  · intro other before d after hconfig hother hd
    rw [installerImage, installerImage, hconfig, hother, firstImage_drop hd]
  · intro other before d after rest t image hconfig hother hdecode hsets
    rw [installerImage, installerImage, hconfig, hother, firstImage_behind hdecode hsets]

/-! ## A key that is no text -/

def numberedConfig : Bytes := Bytes.ofText "1: 2\nmachine:\n  install:\n    image: a/b:1\n"

def numberedTree : Yaml.Tree :=
  .map [(.int 1, .int 2), (.text "machine", .map [(.text "install", .map [(.text "image", .text "a/b:1")])])]

section Reading

variable {m : Mark} {n : Nat} {s : String} {key under : Yaml.Node} {seen : List (Yaml.Tree × Yaml.Tree)}
  {pairs : List (Yaml.Node × Yaml.Node)} {read : Yaml.Node → Decode Yaml.Tree} {keyTree underTree : Yaml.Tree}
  {p : Position}

/-- What a plain value is, as far as it is a number or a text. -/
def plain? (s : String) : Option (Int ⊕ String) :=
  match scalarTree none .plain s with
  | .ok (.int n) => some (.inl n)
  | .ok (.text s) => some (.inr s)
  | _ => none

theorem treeAt_plain (h : scalarTree none .plain s = .ok t) :
    Decoder.treeAt (.scalar m none .plain s) n = pure t := by
  have hscalar : Decoder.treeAt.scalar m none .plain s = pure t := by
    simp [Decoder.treeAt.scalar, Decoder.localTag?, h, Decoder.tagTree]
  cases n <;> exact hscalar

theorem treeAt_number {i : Int} (h : plain? s = some (.inl i)) :
    Decoder.treeAt (.scalar m none .plain s) n = pure (.int i) := by
  unfold plain? at h
  split at h <;> cases h
  exact treeAt_plain ‹_›

theorem treeAt_text {u : String} (h : plain? s = some (.inr u)) :
    Decoder.treeAt (.scalar m none .plain s) n = pure (.text u) := by
  unfold plain? at h
  split at h <;> cases h
  exact treeAt_plain ‹_›

theorem treePairs_cons (hkey : read key = pure keyTree) (hunder : read under = pure underTree)
    (hnew : seen.any (fun pair => keyTree.same pair.1) = false) :
    Decoder.treePairs p m read seen ((key, under) :: pairs) =
      Decoder.treePairs p m read ((keyTree, underTree) :: seen) pairs := by
  simp [Decoder.treePairs, hkey, hunder, hnew]

theorem treeAt_mapping {found : List (Yaml.Tree × Yaml.Tree)}
    (h : Decoder.treePairs {} m (Decoder.treeAt · n) [] pairs = pure found) :
    Decoder.treeAt (.mapping m none pairs) (n + 1) = pure (.map found) := by
  change Decoder.treePairs {} m (Decoder.treeAt · n) [] pairs >>= (fun found => pure (Yaml.Tree.map found)) = _
  rw [h, pure_bind]

theorem treeAt_single (hkey : Decoder.treeAt key n = pure keyTree)
    (hunder : Decoder.treeAt under n = pure underTree) :
    Decoder.treeAt (.mapping m none [(key, under)]) (n + 1) = pure (.map [(keyTree, underTree)]) :=
  treeAt_mapping (treePairs_cons hkey hunder rfl)

theorem decode_of_root (hroot : Decoder.treeAt d.root 128 = pure t) (hwhole : d.problem = none) :
    d.decode Decoder.tree = .ok t := by
  simp only [Document.decode, Decoder.tree, hroot, hwhole]
  rfl

end Reading

def isNumbered : List Document → Bool
  | [⟨.mapping _ none [(.scalar _ none .plain "1", .scalar _ none .plain "2"),
      (.scalar _ none .plain "machine", .mapping _ none [(.scalar _ none .plain "install",
        .mapping _ none [(.scalar _ none .plain "image", .scalar _ none .plain "a/b:1")])])], none, _, _⟩] => true
  | _ => false

theorem exists_numbered : ∃ d, documentsOf numberedConfig = [d] ∧ d.decode Decoder.tree = .ok numberedTree := by
  -- Comparing keys does not evaluate, so only the document is computed, and its tree is put together from it.
  have hshape : isNumbered (documentsOf numberedConfig) = true := by decide +kernel
  unfold isNumbered at hshape
  split at hshape
  case h_2 => cases hshape
  case h_1 hdocs =>
  have hnew : [(Yaml.Tree.int 1, Yaml.Tree.int 2)].any (fun pair => (Yaml.Tree.text "machine").same pair.1) =
      false := by
    simp [Yaml.Tree.same]
  refine ⟨_, hdocs, decode_of_root (treeAt_mapping ?_) rfl⟩
  have hone : plain? "1" = some (.inl 1) := by decide +kernel
  have htwo : plain? "2" = some (.inl 2) := by decide +kernel
  have hmachine : plain? "machine" = some (.inr "machine") := by decide +kernel
  have hinstall : plain? "install" = some (.inr "install") := by decide +kernel
  have himage : plain? "image" = some (.inr "image") := by decide +kernel
  have htext : plain? "a/b:1" = some (.inr "a/b:1") := by decide +kernel
  rw [treePairs_cons (treeAt_number hone) (treeAt_number htwo) rfl,
    treePairs_cons (treeAt_text hmachine)
      (treeAt_single (treeAt_text hinstall) (treeAt_single (treeAt_text himage) (treeAt_text htext))) hnew]
  rfl

/-- The document names an image, yet beside a number it is passed over. -/
theorem numbered_names_image_and_sets_none :
    ∃ d t, documentsOf numberedConfig = [d] ∧ d.decode Decoder.tree = .ok t ∧ NamesImage t "a/b:1" ∧
      installerImage numberedConfig =
        .error (.config "machine configuration does not set machine.install.image") := by
  obtain ⟨d, hdocs, hdecode⟩ := exists_numbered
  have hnone (image : String) : ¬ SetsImage numberedTree image := by
    intro h
    cases imageIn?_eq_some_iff.2 h
  refine ⟨d, numberedTree, hdocs, hdecode, ?_, ?_⟩
  · have hmachine : Under "machine" numberedTree _ := ⟨rfl, .tail _ (.head _), rfl⟩
    exact ⟨hmachine, ⟨rfl, .head _, rfl⟩, ⟨rfl, .head _, rfl⟩, rfl, by decide⟩
  · rw [installerImage, hdocs]
    exact (Outcome.imageless (by simpa using ⟨numberedTree, hdecode, hnone⟩)).firstImage_eq

end Rollout.MachineConfig
