import Rollout.Proofs.Secrets.BundleText
import Rollout.Secrets.Stores

/-!
# A bundle in a file

Whether a bundle is sealed is decided when it is stored, and whether its file is opened when it is
read, each time by what the sealing program does at that time. A bundle stored open is read back. A
bundle stored sealed is read back or refused while the program says that the file is sealed; if it does
not say so, because it is gone or fails, the sealed bytes are read as if they were open.
-/

namespace Rollout.FileStore

variable {σ : Type} {sys : System σ} {dir file : String} {s s₁ s₂ : σ} {bundle : Bundle}
  {content : Bytes}

/-- What the sealing program makes of a plain text. -/
def sealing (sys : System σ) (file : String) (s : σ) (plain : Bytes) : Except HelperFault Bytes :=
  (sys.runHelper s sealer ["encrypt", "--filename-override", file] (some plain)).2

/-- What the sealing program makes of the file. -/
def opening (sys : System σ) (file : String) (s : σ) : Except HelperFault Bytes :=
  (sys.runHelper s sealer ["decrypt", file] none).2

structure Holds (sys : System σ) (file : String) (s : σ) (content : Bytes) : Prop where
  exists_eq : sys.exists? s file = true
  read_eq : sys.read s file = .ok content

/-- The file has not been touched from one state to another; all else may have changed, the sealing
program too. -/
structure Untouched (sys : System σ) (file : String) (s s' : σ) : Prop where
  exists_eq : sys.exists? s' file = sys.exists? s file
  read_eq : sys.read s' file = sys.read s file

theorem Holds.untouched (h : Holds sys file s content) (hsame : Untouched sys file s s₁) :
    Holds sys file s₁ content :=
  ⟨hsame.exists_eq.trans h.exists_eq, hsame.read_eq.trans h.read_eq⟩

/-- What the store relies on. In no state does the sealing program have to be there or to work. -/
structure Reliable (sys : System σ) (file : String) : Prop where
  /-- What is written is in the file. -/
  write : ∀ {s s' content}, sys.write s file content = (s', .ok ()) → Holds sys file s' content
  /-- Asking about the file leaves it as it is. -/
  ask : ∀ {s content}, Holds sys file s content →
    Holds sys file (isSealed sys s file).1 content
  /-- What is opened is what was sealed. -/
  opens : ∀ {s s' plain content opened}, sealing sys file s plain = .ok content →
    Holds sys file s' content → opening sys file s' = .ok opened → opened = plain
  /-- A bundle in plain text is not said to be sealed. -/
  knows : ∀ {s} {bundle : Bundle}, Holds sys file s (.ofText bundle.yaml) →
    (isSealed sys s file).2 = false

/-! ## Reading the file -/

theorem get_of_exists (h : sys.exists? s (path dir) = true) : (get sys dir s).2 ≠ .ok none := by
  rw [get, if_pos h]
  split
  · next b _ => cases readBundle (path dir) b <;> nofun
  · nofun

theorem get_of_open (hsys : Reliable sys (path dir)) (h : Holds sys (path dir) s content)
    (hopen : (isSealed sys s (path dir)).2 = false) :
    (get sys dir s).2 = (readBundle (path dir) content).map some := by
  have hkept := hsys.ask h
  unfold get FileStore.content
  rw [if_pos h.exists_eq]
  generalize isSealed sys s (path dir) = asked at hopen hkept
  obtain ⟨s', answer⟩ := asked
  obtain rfl : answer = false := hopen
  simp only [hkept.read_eq]

theorem get_of_sealed (h : Holds sys (path dir) s content)
    (hsealed : (isSealed sys s (path dir)).2 = true) :
    (∃ opened, opening sys (path dir) (isSealed sys s (path dir)).1 = .ok opened ∧
      (get sys dir s).2 = (readBundle (path dir) opened).map some) ∨
    ∃ e, (get sys dir s).2 = .error e := by
  unfold get FileStore.content opening
  rw [if_pos h.exists_eq]
  generalize isSealed sys s (path dir) = asked at hsealed
  obtain ⟨s', answer⟩ := asked
  obtain rfl : answer = true := hsealed
  dsimp only
  generalize sys.runHelper s' sealer ["decrypt", path dir] none = ran
  obtain ⟨s'', fault | opened⟩ := ran
  · exact .inr ⟨_, rfl⟩
  · exact .inl ⟨opened, rfl, rfl⟩

theorem readBundle_yaml (source : String) (bundle : Bundle) :
    readBundle source (.ofText bundle.yaml) = .ok bundle := by
  unfold readBundle
  rw [Bytes.text?_ofText]
  exact bundle.parse_yaml

/-! ## What was stored -/

/-- What is stored of a bundle: what the sealing program makes of it, or its plain text. -/
def stored (sys : System σ) (file : String) (s : σ) (bundle : Bundle) : Bytes :=
  (sealing sys file s (.ofText bundle.yaml)).toOption.getD (.ofText bundle.yaml)

theorem holds_of_put (hsys : Reliable sys (path dir)) (h : put sys dir s bundle = (s₁, .ok ())) :
    Holds sys (path dir) s₁ (stored sys (path dir) s bundle) := by
  unfold stored sealing
  dsimp only [put] at h
  generalize sys.runHelper s sealer ["encrypt", "--filename-override", path dir]
    (some (.ofText bundle.yaml)) = ran at h ⊢
  obtain ⟨s', result⟩ := ran
  split at h
  · next hwrite =>
    cases h
    cases result <;> exact hsys.write hwrite
  · cases h

/-- Sealed bytes that are said to be sealed are opened to the bundle, or the bundle is refused. -/
theorem get_of_stored_sealed (hsys : Reliable sys (path dir))
    (hsealing : sealing sys (path dir) s (.ofText bundle.yaml) = .ok content)
    (h : Holds sys (path dir) s₂ content) (hsealed : (isSealed sys s₂ (path dir)).2 = true) :
    (get sys dir s₂).2 = .ok (some bundle) ∨ ∃ e, (get sys dir s₂).2 = .error e := by
  refine (get_of_sealed h hsealed).imp_left ?_
  rintro ⟨opened, hopened, hget⟩
  have hplain := hsys.opens hsealing (hsys.ask h) hopened
  rw [hget, hplain, readBundle_yaml]
  rfl

/-! ## A machine with one file -/

/-- A text as the sealing program writes it into a file. -/
def enciphered (text : String) : String := "ENC[AES256_GCM,data:" ++ text ++ ",type:str]"

def scrambled (b : Bundle) : Bundle :=
  let pair (p : KeyPair) : KeyPair := ⟨enciphered p.crt, enciphered p.key⟩
  ⟨enciphered b.id, enciphered b.secret, pair b.os, pair b.admin, pair b.k8s, pair b.etcd⟩

/-- What the sealing program adds about itself. -/
def sealFields : List (String × Yaml.Output) := [("sops", .map [("version", .text "3.9.0")])]

/-- A sealed bundle: the same names, the texts enciphered, and a section about the sealing. -/
def sealedText (b : Bundle) : Bytes :=
  .ofText (Yaml.Output.map ((scrambled b).fields ++ sealFields)).write

/-- The one file of a machine, and whether the machine has the sealing program. -/
structure Notebook where
  content : Option Bytes
  hasSealer : Bool

/-- The sealing program, with the key for one bundle. -/
def sealerRun (b : Bundle) (content : Option Bytes) (args : List String) (input : Option Bytes) :
    Finished :=
  match args with
  | "encrypt" :: _ =>
    if input = some (.ofText b.yaml) then ⟨.code 0, sealedText b⟩ else ⟨.code 1, []⟩
  | "filestatus" :: _ =>
    if content = some (sealedText b) then ⟨.code 0, .ofText "\x7b\"encrypted\":true\x7d"⟩
    else ⟨.code 0, .ofText "\x7b\"encrypted\":false\x7d"⟩
  | "decrypt" :: _ =>
    if content = some (sealedText b) then ⟨.code 0, .ofText b.yaml⟩ else ⟨.code 128, []⟩
  | _ => ⟨.code 1, []⟩

def notebook (b : Bundle) : System Notebook where
  isDirectory n _ := n.content.elim (.error .notFound) fun _ => .ok false
  read n _ := n.content.elim (.error .notFound) .ok
  write n _ content := ({ n with content := some content }, .ok ())
  makeDirectory n _ := (n, .ok ())
  run n _ args input :=
    (n, if n.hasSealer then .ok (sealerRun b n.content args input) else .error .notFound)

variable {b : Bundle} {n : Notebook}

theorem holds_notebook : Holds (notebook b) file n content ↔ n.content = some content := by
  obtain ⟨_ | c, hasSealer⟩ := n
  · exact ⟨fun h => (nomatch h.read_eq), nofun⟩
  · exact ⟨fun h => congrArg some (Except.ok.inj h.read_eq),
      fun h => ⟨rfl, congrArg Except.ok (Option.some.inj h)⟩⟩

/-- An answer of one field says what the field says. -/
theorem isSealedStatus_ofText {text : String} {sealed : Bool}
    (h : JsonValue.value? text.toList (text.toList.length + 1) =
      some (.object [("encrypted".toList, .bool sealed)], [])) :
    isSealedStatus (.ofText text) = sealed := by
  have hparse : JsonValue.parse? (.ofText text) =
      some (.object [("encrypted".toList, .bool sealed)]) := by
    simp only [JsonValue.parse?, Bytes.text?_ofText, Option.bind_eq_bind, Option.bind_some, h]
    rfl
  rw [isSealedStatus, hparse]
  rfl

theorem runHelper_notebook {args : List String} {input : Option Bytes} :
    (notebook b).runHelper n sealer args input = (n,
      if n.hasSealer then
        if (sealerRun b n.content args input).status.isSuccess then
          .ok (sealerRun b n.content args input).output
        else .error (.failed (sealer ++ " " ++ " ".intercalate args)
          (sealerRun b n.content args input).status)
      else .error (.unusable "run" sealer .notFound)) := by
  obtain ⟨content, _ | _⟩ := n
  · rfl
  · simp only [System.runHelper, notebook, if_true]
    split <;> rfl

theorem isSealed_notebook :
    isSealed (notebook b) n file = (n, n.hasSealer && n.content == some (sealedText b)) := by
  rw [isSealed, runHelper_notebook]
  cases hsealer : n.hasSealer with
  | false => rfl
  | true =>
    by_cases hcontent : n.content = some (sealedText b)
    · have hanswer : isSealedStatus (.ofText "\x7b\"encrypted\":true\x7d") = true :=
        isSealedStatus_ofText (by simp only [String.reduceToList]; rfl)
      simp [sealerRun, hcontent, ExitStatus.isSuccess, hanswer]
    · have hanswer : isSealedStatus (.ofText "\x7b\"encrypted\":false\x7d") = false :=
        isSealedStatus_ofText (by simp only [String.reduceToList]; rfl)
      simp [sealerRun, hcontent, ExitStatus.isSuccess, hanswer]

theorem areFields_sealFields : Yaml.AreFields sealFields :=
  ⟨by decide, ⟨nofun, by decide, trivial, trivial⟩, trivial⟩

theorem areFields_sealed (b : Bundle) : Yaml.AreFields ((scrambled b).fields ++ sealFields) :=
  (scrambled b).areFields_fields.append areFields_sealFields

theorem sealedText_ne (b c : Bundle) : sealedText b ≠ .ofText c.yaml := by
  intro h
  have htext : (Yaml.Output.map ((scrambled b).fields ++ sealFields)).write =
      (Yaml.Output.map c.fields).write := by
    have hsame := congrArg Bytes.text? h
    rw [sealedText, Bytes.text?_ofText, Bytes.text?_ofText] at hsame
    exact Option.some.inj hsame
  have hfields : (scrambled b).fields ++ sealFields = c.fields :=
    Yaml.write_injective nofun nofun (areFields_sealed b) c.areFields_fields htext
  have hlength : 3 = 2 := congrArg List.length hfields
  cases hlength

theorem readBundle_sealedText (source : String) (b : Bundle) :
    readBundle source (sealedText b) = .ok (scrambled b) := by
  unfold readBundle sealedText
  rw [Bytes.text?_ofText]
  exact Bundle.parse_write sealFields areFields_sealFields (by decide)

theorem sealing_notebook {plain : Bytes} (h : sealing (notebook b) file n plain = .ok content) :
    plain = .ofText b.yaml ∧ content = sealedText b := by
  rw [sealing, runHelper_notebook] at h
  cases hsealer : n.hasSealer with
  | false => simp [hsealer] at h
  | true =>
    by_cases hplain : plain = .ofText b.yaml
    · simp [hsealer, sealerRun, hplain, ExitStatus.isSuccess] at h
      exact ⟨hplain, h.symm⟩
    · simp [hsealer, sealerRun, hplain, ExitStatus.isSuccess] at h

theorem opening_notebook (h : n.content = some (sealedText b)) {opened : Bytes}
    (hopened : opening (notebook b) file n = .ok opened) : opened = .ofText b.yaml := by
  rw [opening, runHelper_notebook] at hopened
  cases hsealer : n.hasSealer with
  | false => simp [hsealer] at hopened
  | true =>
    simp [hsealer, sealerRun, h, ExitStatus.isSuccess] at hopened
    exact hopened.symm

theorem reliable_notebook (b : Bundle) (file : String) : Reliable (notebook b) file where
  write h := by
    cases h
    exact holds_notebook.2 rfl
  ask h := by
    rw [isSealed_notebook]
    exact h
  opens hsealing h hopened := by
    obtain ⟨hplain, hcontent⟩ := sealing_notebook hsealing
    rw [hplain]
    exact opening_notebook ((holds_notebook.1 h).trans (congrArg some hcontent)) hopened
  knows {n bundle} h := by
    have hcontent : (n.content == some (sealedText b)) = false := by
      rw [holds_notebook.1 h, beq_eq_false_iff_ne]
      exact fun hsame => sealedText_ne b bundle (Option.some.inj hsame).symm
    rw [isSealed_notebook, hcontent, Bool.and_false]

theorem isSealed_sealedText (b : Bundle) (file : String) :
    (isSealed (notebook b) ⟨some (sealedText b), true⟩ file).2 = true := by
  rw [isSealed_notebook]
  exact beq_self_eq_true (some (sealedText b))

/-- Where the sealing program is gone, a sealed bundle is read with every text enciphered. -/
theorem get_notebook (b : Bundle) (dir : String) :
    (get (notebook b) dir ⟨some (sealedText b), false⟩).2 = .ok (some (scrambled b)) := by
  have hholds : Holds (notebook b) (path dir) ⟨some (sealedText b), false⟩ (sealedText b) :=
    holds_notebook.2 rfl
  rw [get_of_open (reliable_notebook b (path dir)) hholds (by rw [isSealed_notebook]; rfl),
    readBundle_sealedText]
  rfl

theorem encrypt_notebook (b : Bundle) (file : String) (content : Option Bytes) :
    (notebook b).runHelper ⟨content, true⟩ sealer ["encrypt", "--filename-override", file]
      (some (.ofText b.yaml)) = (⟨content, true⟩, .ok (sealedText b)) := by
  rw [runHelper_notebook]
  simp [sealerRun, ExitStatus.isSuccess]

theorem sealing_yaml (b : Bundle) (file : String) (content : Option Bytes) :
    sealing (notebook b) file ⟨content, true⟩ (.ofText b.yaml) = .ok (sealedText b) :=
  congrArg Prod.snd (encrypt_notebook b file content)

theorem put_notebook (b : Bundle) (dir : String) (content : Option Bytes) :
    put (notebook b) dir ⟨content, true⟩ b = (⟨some (sealedText b), true⟩, .ok ()) := by
  dsimp only [put]
  rw [encrypt_notebook]
  rfl

/-! ## Storing and reading -/

/-- A bundle that was stored is never absent afterwards. Stored in plain text it is read back;
stored sealed it is read back or refused if the file is said to be sealed. Sealed bytes that are not
said to be sealed are read as they are. -/
theorem get_after_put (hsys : Reliable sys (path dir))
    (hput : put sys dir s bundle = (s₁, .ok ())) (hsame : Untouched sys (path dir) s₁ s₂) :
    (get sys dir s₂).2 ≠ .ok none ∧
    (∀ fault, sealing sys (path dir) s (.ofText bundle.yaml) = .error fault →
      (get sys dir s₂).2 = .ok (some bundle)) ∧
    (∀ content, sealing sys (path dir) s (.ofText bundle.yaml) = .ok content →
      ((isSealed sys s₂ (path dir)).2 = true →
        (get sys dir s₂).2 = .ok (some bundle) ∨ ∃ e, (get sys dir s₂).2 = .error e) ∧
      ((isSealed sys s₂ (path dir)).2 = false →
        (get sys dir s₂).2 = (readBundle (path dir) content).map some)) := by
  have hholds := (holds_of_put hsys hput).untouched hsame
  refine ⟨get_of_exists hholds.exists_eq, fun fault hsealing => ?_, fun content hsealing => ?_⟩
  · have hplain : stored sys (path dir) s bundle = .ofText bundle.yaml := by
      rw [stored, hsealing]
      rfl
    rw [hplain] at hholds
    rw [get_of_open hsys hholds (hsys.knows hholds), readBundle_yaml]
    rfl
  · have hcontent : stored sys (path dir) s bundle = content := by
      rw [stored, hsealing]
      rfl
    rw [hcontent] at hholds
    exact ⟨get_of_stored_sealed hsys hsealing hholds, get_of_open hsys hholds⟩

def sample : Bundle :=
  let pair (name : String) : KeyPair := ⟨name ++ " certificate\n", name ++ " key\n"⟩
  ⟨"aWQ=", "c2VjcmV0", pair "os", pair "admin", pair "k8s", pair "etcd"⟩

theorem get_after_put_notebook :
    put (notebook sample) "conf" ⟨none, true⟩ sample =
      (⟨some (sealedText sample), true⟩, .ok ()) ∧
    (isSealed (notebook sample) ⟨some (sealedText sample), true⟩ (path "conf")).2 = true ∧
    ((get (notebook sample) "conf" ⟨some (sealedText sample), true⟩).2 = .ok (some sample) ∨
      ∃ e, (get (notebook sample) "conf" ⟨some (sealedText sample), true⟩).2 = .error e) := by
  have hput := put_notebook sample "conf" none
  have hsealing := sealing_yaml sample (path "conf") none
  have hsealed := isSealed_sealedText sample (path "conf")
  have hsame : Untouched (notebook sample) (path "conf") ⟨some (sealedText sample), true⟩
      ⟨some (sealedText sample), true⟩ := ⟨rfl, rfl⟩
  have hget := get_after_put (reliable_notebook sample _) hput hsame
  exact ⟨hput, hsealed, (hget.2.2 _ hsealing).1 hsealed⟩

/-- Read without the sealing program, a sealed bundle is another one, and no error. -/
theorem sealed_bundle_misread :
    Reliable (notebook sample) (path "conf") ∧
    put (notebook sample) "conf" ⟨none, true⟩ sample =
      (⟨some (sealedText sample), true⟩, .ok ()) ∧
    Untouched (notebook sample) (path "conf") ⟨some (sealedText sample), true⟩
      ⟨some (sealedText sample), false⟩ ∧
    (get (notebook sample) "conf" ⟨some (sealedText sample), false⟩).2 =
      .ok (some (scrambled sample)) ∧
    scrambled sample ≠ sample := by
  refine ⟨reliable_notebook sample _, put_notebook sample _ none, ⟨rfl, rfl⟩,
    get_notebook sample _, fun h => ?_⟩
  exact absurd (congrArg Bundle.id h) (by decide)

end Rollout.FileStore
