import Mathlib.Tactic.SplitIfs
import Rollout.CommandLine.Invocation

/-!
# What is read of a command line

An option only counts with a value its switch accepts, wherever it stands. So a client certificate is asked
for with a number of hours from one on, and every number of hours from one on can be asked for.
-/

namespace Rollout

namespace Arguments

variable {switches : List Switch} {s : Switch} {found found' : Found}

/-- Every option that was found has a value that a switch of its name accepts. -/
def Accepted (switches : List Switch) (found : Found) : Prop :=
  ∀ option ∈ found, ∃ s ∈ switches, s.name = option.1 ∧ s.accepts option.2 = true

theorem Accepted.nil (switches : List Switch) : Accepted switches [] := by
  intro option hoption
  cases hoption

theorem Accepted.note {value : String} (h : Accepted switches found) (hs : s ∈ switches)
    (hnote : Arguments.note s value found = .ok found') : Accepted switches found' := by
  unfold Arguments.note at hnote
  split at hnote
  · next hvalue =>
    cases hnote
    have haccepts : s.accepts value = true := (Bool.and_eq_true_iff.mp hvalue).1
    intro option hoption
    cases hoption with
    | head => exact ⟨s, hs, rfl, haccepts⟩
    | tail _ hold => exact h option hold
  · cases hnote

/-- Whatever an option takes for its value, it is noted. -/
theorem exists_note_of_take {attached : Option String} {rest rest' : List String}
    (h : take s attached rest found = .ok (found', rest')) :
    ∃ value, note s value found = .ok found' := by
  have hnoted {value : String} {left : List String}
      (h : (do return (← note s value found, left)) = Except.ok (ε := Refusal) (found', rest')) :
      ∃ value, note s value found = .ok found' := by
    cases hnote : note s value found with
    | error r => rw [hnote] at h; cases h
    | ok f => rw [hnote] at h; cases h; exact ⟨value, hnote⟩
  unfold take at h
  split at h
  · exact hnoted h
  · cases h
  · exact hnoted h
  · cases h
  · exact hnoted h
  · split at h
    · exact hnoted h
    split at h
    · exact hnoted h
    · cases h

theorem isOption_iff {arg : String} : isOption arg = true ↔ ['-'] <+: arg.toList ∧ arg ≠ "-" := by
  have hstart : arg.startsWith "-" = true ↔ ['-'] <+: arg.toList := String.startsWith_string_iff
  rw [isOption, Bool.and_eq_true, hstart, bne_iff_ne]

theorem options_cons {top : Bool} {arg : String} {attached : Option String} {args rest : List String}
    (harg : isOption arg = true) (hend : arg ≠ "--") (hoption : option switches top arg = .ok (s, attached))
    (htake : take s attached args found = .ok (found', rest)) :
    options switches top (arg :: args) found = options switches top rest found' := by
  rw [options, if_neg (by simp [harg, hend]), hoption]
  dsimp only
  split
  · next htaken => rw [htake] at htaken; cases htaken
  · next htaken => rw [htake] at htaken; cases htaken; rfl

theorem mem_of_option {top : Bool} {arg : String} {attached : Option String}
    (h : option switches top arg = .ok (s, attached)) : s ∈ switches := by
  unfold option at h
  split at h
  · dsimp only at h
    split at h
    · next hfind => cases h; exact List.mem_of_find?_eq_some hfind
    · split_ifs at h
  · split at h
    · cases h
    · split at h
      · next hfind => cases h; exact List.mem_of_find?_eq_some hfind
      · split_ifs at h

theorem Accepted.options {top : Bool} {args rest : List String} (h : Accepted switches found)
    (hoptions : Arguments.options switches top args found = .ok (found', rest)) :
    Accepted switches found' := by
  fun_induction Arguments.options switches top args found with
  | case1 => cases hoptions; exact h
  | case2 => cases hoptions; exact h
  | case3 => cases hoptions
  | case4 => cases hoptions
  | case5 found arg args _ s attached hoption found₁ args₁ htake ih =>
    obtain ⟨value, hnote⟩ := exists_note_of_take htake
    exact ih (h.note (mem_of_option hoption) hnote) hoptions

theorem Accepted.of_onlyOptions {args : List String} (h : onlyOptions switches args = .ok found) :
    Accepted switches found := by
  unfold onlyOptions at h
  cases hoptions : Arguments.options switches false args [] with
  | error r => rw [hoptions] at h; cases h
  | ok r =>
    obtain ⟨found₁, rest⟩ := r
    have haccepted := (Accepted.nil switches).options hoptions
    rw [hoptions] at h
    dsimp only [bind, Except.bind] at h
    split at h
    · next heq => cases heq; cases h; exact haccepted
    · next heq => cases heq; cases h; exact haccepted
    · cases h

end Arguments

namespace Invocation

open Arguments

/-! ## Numbers -/

theorem isDigit_of_mem_toString {n : Nat} {c : Char} (h : c ∈ (toString n).toList) : c.isDigit = true := by
  rw [Nat.toString_eq_ofList_toDigits, String.toList_ofList] at h
  exact Nat.isDigit_of_mem_toDigits (by decide) (by decide) h

theorem readNumber?_toString (n : UInt64) : readNumber? (toString n.toNat) = some n := by
  have hlist : (toString n.toNat).toList = Nat.toDigits 10 n.toNat := by
    rw [Nat.toString_eq_ofList_toDigits, String.toList_ofList]
  have hall : (Nat.toDigits 10 n.toNat).all Char.isDigit = true :=
    List.all_eq_true.mpr fun c hc => isDigit_of_mem_toString (hlist ▸ hc)
  have hempty : (Nat.toDigits 10 n.toNat).isEmpty = false := by simp [Nat.toDigits_ne_nil]
  have hvalue : (Nat.toDigits 10 n.toNat).foldl (fun n c => 10 * n + (c.toNat - 48)) 0 = n.toNat :=
    Nat.ofDigitChars_ten_toDigits
  unfold readNumber?
  dsimp only
  split
  · next rest hplus =>
    have hmem : '+' ∈ (toString n.toNat).toList := by rw [hplus]; exact List.mem_cons_self
    exact absurd (isDigit_of_mem_toString hmem) (by decide)
  · simp only [hlist, hempty, hall, hvalue, Bool.not_true, Bool.or_self, Bool.false_eq_true, ↓reduceIte]
    rw [if_pos n.toNat_lt, UInt64.ofNat_toNat]

theorem isHours_toString {n : UInt64} (h : 1 ≤ n) : isHours (toString n.toNat) = true := by
  rw [isHours, readNumber?_toString]
  exact decide_eq_true h

theorem isOption_toString (n : Nat) : isOption (toString n) = false := by
  refine Bool.eq_false_iff.mpr fun hoption => ?_
  have hmem : '-' ∈ (toString n).toList := (isOption_iff.mp hoption).1.subset List.mem_cons_self
  exact absurd (isDigit_of_mem_toString hmem) (by decide)

/-! ## Hours -/

variable {env : String → Option String} {args : List String}

/-- What has been read of a command line: the name of an action, with options before and behind it. -/
theorem parse_eq_ok_iff {i : Invocation} :
    parse env args = .ok i ↔ ∃ before name rest form found,
      options commonSwitches true args [] = .ok (before, name :: rest) ∧ form? name = some form ∧
      onlyOptions (commonSwitches ++ form.switches) rest = .ok found ∧
      settingsOf env before found = .ok i.settings ∧ form.make found = i.action := by
  constructor
  · intro h
    unfold parse at h
    cases hoptions : options commonSwitches true args [] with
    | error r => rw [hoptions] at h; cases h
    | ok r =>
      obtain ⟨before, rest⟩ := r
      rw [hoptions] at h
      cases rest with
      | nil => cases h
      | cons name rest =>
        dsimp only [bind, Except.bind] at h
        cases hform : form? name with
        | none => rw [hform] at h; cases h
        | some form =>
          rw [hform] at h
          dsimp only at h
          cases hfound : onlyOptions (commonSwitches ++ form.switches) rest with
          | error r => rw [hfound] at h; cases h
          | ok found =>
            rw [hfound] at h
            dsimp only at h
            cases hsettings : settingsOf env before found with
            | error r => rw [hsettings] at h; cases h
            | ok settings =>
              rw [hsettings] at h
              cases h
              exact ⟨before, name, rest, form, found, rfl, hform, hfound, hsettings, rfl⟩
  · rintro ⟨before, name, rest, form, found, hoptions, hform, hfound, hsettings, haction⟩
    simp only [parse, hoptions, hform, hfound, hsettings, haction, bind, Except.bind, pure, Except.pure]

theorem eq_kubeconfigForm {name : String} {form : Form} {found : Found} {hours : UInt64}
    (hform : form? name = some form) (hmake : form.make found = .kubeconfig hours) :
    form = kubeconfigForm := by
  unfold form? at hform
  split at hform
  all_goals cases hform
  all_goals first
    | rfl
    | cases hmake

theorem eq_validityHours {s : Switch} (hs : s ∈ commonSwitches ++ kubeconfigForm.switches)
    (hname : s.name = "validity-hours") : s = { name := "validity-hours", accepts := isHours } := by
  have hothers : ∀ s ∈ commonSwitches, s.name ≠ "validity-hours" := by
    simp [commonSwitches, common, path]
  rcases List.mem_append.mp hs with hcommon | hown
  · exact absurd hname (hothers s hcommon)
  · exact List.mem_singleton.mp hown

theorem hours_pos_of_parse {settings : Settings} {hours : UInt64}
    (h : parse env args = .ok ⟨settings, .kubeconfig hours⟩) : 1 ≤ hours := by
  obtain ⟨before, name, rest, form, found, -, hform, hfound, -, hmake⟩ := parse_eq_ok_iff.mp h
  obtain rfl := eq_kubeconfigForm hform hmake
  have hhours : ((found.lookup "validity-hours").bind readNumber?).getD 12 = hours :=
    Action.kubeconfig.inj hmake
  rw [← hhours]
  cases hlookup : found.lookup "validity-hours" with
  | none => decide
  | some text =>
    obtain ⟨front, back, hsplit, -⟩ := List.lookup_eq_some_iff.mp hlookup
    have hmem : ("validity-hours", text) ∈ found := by rw [hsplit]; simp
    obtain ⟨s, hs, hname, haccepts⟩ := Accepted.of_onlyOptions hfound _ hmem
    have hswitch := eq_validityHours hs hname
    rw [hswitch] at haccepts
    change (readNumber? text).any (1 ≤ ·) = true at haccepts
    change 1 ≤ (readNumber? text).getD 12
    cases hnumber : readNumber? text with
    | none => rw [hnumber] at haccepts; cases haccepts
    | some n => rw [hnumber] at haccepts; exact of_decide_eq_true haccepts

/-- Every number of hours from one on can be asked for. -/
theorem parse_validityHours {hours : UInt64} (h : 1 ≤ hours) :
    parse env ["kubeconfig", "--validity-hours", toString hours.toNat] =
      (settingsOf env [] []).map fun settings => ⟨settings, .kubeconfig hours⟩ := by
  have hform : form? "kubeconfig" = some kubeconfigForm := rfl
  have hbefore : options commonSwitches true ["kubeconfig", "--validity-hours", toString hours.toNat] [] =
      .ok ([], ["kubeconfig", "--validity-hours", toString hours.toNat]) := by
    have haction : isOption "kubeconfig" = false := by
      rw [Bool.eq_false_iff, ne_eq, isOption_iff]
      decide
    rw [options, haction]
    rfl
  have hoption : option (commonSwitches ++ kubeconfigForm.switches) false "--validity-hours" =
      .ok ({ name := "validity-hours", accepts := isHours }, none) := by
    have hhyphens : "--validity-hours".startsWith "--" = true := by
      rw [String.startsWith_string_iff]
      decide
    rw [option, if_pos hhyphens]
    rfl
  have htake : take { name := "validity-hours", accepts := isHours } none [toString hours.toNat] [] =
      .ok ([("validity-hours", toString hours.toNat)], []) := by
    simp only [take, isOption_toString, note, isHours_toString h]
    rfl
  have hfound : onlyOptions (commonSwitches ++ kubeconfigForm.switches)
      ["--validity-hours", toString hours.toNat] = .ok [("validity-hours", toString hours.toNat)] := by
    rw [onlyOptions, options_cons (isOption_iff.mpr (by decide)) (by decide) hoption htake, options]
    rfl
  have hsettings : settingsOf env [] [("validity-hours", toString hours.toNat)] = settingsOf env [] [] := by
    rfl
  have hmake : kubeconfigForm.make [("validity-hours", toString hours.toNat)] = .kubeconfig hours := by
    change Action.kubeconfig ((readNumber? (toString hours.toNat)).getD 12) = .kubeconfig hours
    rw [readNumber?_toString, Option.getD_some]
  simp only [parse, hbefore, hform, hfound, hsettings, hmake, bind, Except.bind]
  cases settingsOf env [] [] with
  | error r => rfl
  | ok settings => rfl

end Invocation
end Rollout
