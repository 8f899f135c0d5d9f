import Rollout.CommandLine.Desk
import Rollout.Proofs.Cancellation.Courses
import Rollout.Proofs.Connection.Lines
import Rollout.Proofs.Console.Decisions

/-!
# The operator of a run

The questions of a run are put to the operator at the desk the command works at, and nothing else reads the
input. So the questions in the journal of a run are answered as if they had been put one after the other, each
by its own line.
-/

namespace Rollout

variable {σ α : Type}

open Console (series)

/-- A question that has been answered, with its answer. -/
def Entry.reply? : Entry → Option (String × Except Error Bool)
  | .answered _ (.ask question) a => some (question, a)
  | _ => none

/-- What the run learns of a decision. -/
def Desk.reply : Option Bool → Except Error Bool
  | some answer => .ok answer
  | none => .error (.prompt "failed to read answer: stream did not contain valid UTF-8")

/-- What a series of questions leaves of the input. -/
def Console.leftOver (questions : List String) (input : Bytes) : Bytes :=
  ((series questions input).getLast?.map (·.unread)).getD input

/-- The answers are those of the questions put one after the other over the input, of which `left` is left
over. -/
structure AnsweredInTurn (input : Bytes) (replies : List (String × Except Error Bool)) (left : Bytes) :
    Prop where
  answers : replies.map (·.2) = (series (replies.map (·.1)) input).map fun x => Desk.reply x.answer
  left : left = Console.leftOver (replies.map (·.1)) input

theorem Console.leftOver_cons (question : String) (rest : List String) (input : Bytes) :
    leftOver (question :: rest) input = leftOver rest (ask question input).unread := by
  cases hseries : (series rest (ask question input).unread).getLast? with
  | none => simp [leftOver, series, List.getLast?_cons, hseries]
  | some x => simp [leftOver, series, List.getLast?_cons, hseries]

namespace AnsweredInTurn

variable {input left : Bytes} {replies : List (String × Except Error Bool)} {question : String}

protected theorem nil (input : Bytes) : AnsweredInTurn input [] input := ⟨rfl, rfl⟩

protected theorem cons
    (h : AnsweredInTurn (Console.ask question input).unread replies left) :
    AnsweredInTurn input ((question, Desk.reply (Console.ask question input).answer) :: replies) left := by
  obtain ⟨hanswers, hleft⟩ := h
  refine ⟨?_, ?_⟩
  · simp [series, hanswers]
  · rw [hleft, List.map_cons, Console.leftOver_cons]

end AnsweredInTurn

/-! ## The desk -/

/-- Connecting keeps of the state what probing, dialling and loading the secrets keep. -/
theorem Network.keeps_connect {β : Type} {net : Network σ} {secrets : σ → σ × Except Error Bundle} {f : σ → β}
    (hprobe : ∀ s authority name, f (net.probe s authority name).1 = f s)
    (hdial : ∀ s authority name credentials, f (net.dial s authority name credentials).1 = f s)
    (hsecrets : ∀ s, f (secrets s).1 = f s) (s : σ) (node : Node) :
    f (net.connect secrets s node).1 = f s := by
  have hprobed {s s₁ : σ} {a n : String} {r : Except String Bool} (h : net.probe s a n = (s₁, r)) :
      f s₁ = f s := by rw [← hprobe s a n, h]
  have hdialled {s s₁ : σ} {a n : String} {c : Option Credentials} {r : Except String Unit}
      (h : net.dial s a n c = (s₁, r)) : f s₁ = f s := by rw [← hdial s a n c, h]
  have hloaded {s s₁ : σ} {r : Except Error Bundle} (h : secrets s = (s₁, r)) : f s₁ = f s := by
    rw [← hsecrets s, h]
  unfold connect
  dsimp only
  split
  · rfl
  split
  · next hprobe => exact hprobed hprobe
  · next hprobe =>
    split
    · next hdial => exact (hdialled hdial).trans (hprobed hprobe)
    · next hdial => exact (hdialled hdial).trans (hprobed hprobe)
  · next hprobe =>
    split
    · next hsecrets => exact (hloaded hsecrets).trans (hprobed hprobe)
    · next hsecrets =>
      have hkept := (hloaded hsecrets).trans (hprobed hprobe)
      split
      · exact hkept
      split
      · next hdial => exact (hdialled hdial).trans hkept
      · next hdial => exact (hdialled hdial).trans hkept

namespace Desk

variable {site : Site σ} {store : Store σ} {dir : String} {d d' : Desk σ} {es : List Entry}

theorem input_begun (d : Desk σ) (t : Instant) (c : Call) :
    ((environment site store dir).serve d t c).begun.input = d.input := by
  cases c <;> rfl

theorem keeps_input :
    (environment site store dir).Keeps (fun c => ∀ question, c ≠ .ask question) Desk.input := by
  refine fun d t c hc => ⟨input_begun d t c, fun d' => ?_⟩
  cases c with
  | connect node =>
    exact Network.keeps_connect (f := Desk.input) (fun _ _ _ => rfl) (fun _ _ _ _ => rfl) (fun _ => rfl) d' node
  | ask question => exact absurd rfl (hc question)
  | _ => rfl

/-- The questions answered by the way are answered in turn. -/
theorem answeredInTurn_of_evolves (h : (environment site store dir).Evolves d es d') :
    AnsweredInTurn d.input (es.filterMap Entry.reply?) d'.input := by
  induction h with
  | done => exact .nil _
  | @abandoned d d' t c es _ ih =>
    rw [input_begun] at ih
    exact ih
  | @answered d d₁ d' t t' c a es hresponse _ ih =>
    by_cases hc : ∃ question, c = .ask question
    · obtain ⟨question, rfl⟩ := hc
      obtain ⟨rfl, rfl⟩ := Prod.mk.inj hresponse
      exact ih.cons
    · have hother : ∀ question, c ≠ .ask question := fun question h => hc ⟨question, h⟩
      have hkept : d₁.input = d.input := keeps_input.respond hother hresponse
      have hnone : Entry.reply? (.answered t' c a) = none := by
        cases c with
        | ask question => exact absurd rfl (hother question)
        | _ => rfl
      rw [List.filterMap_cons_none rfl, List.filterMap_cons_none hnone, ← hkept]
      exact ih

end Desk

namespace Work

variable {site : Site σ} {store : Store σ} {dir : String} {S : Setting (Desk σ)} {w w' : World (Desk σ)}
  {act : Observation → Work (Desk σ) α} {es : List Entry}

theorem Observes.ne_ask {c : Call} (h : Observes c) (question : String) : c ≠ .ask question := by
  rintro rfl
  obtain ⟨node, step, hstep⟩ := h
  cases step <;> cases hstep

theorem silent_of_ends_gather (hS : S.environment = Desk.environment site store dir)
    {r : Except Stop (List Observation)} (h : gather.Ends S w r w') (hes : w.Gains w' es) :
    es.filterMap Entry.reply? = [] ∧ w'.state.input = w.state.input := by
  constructor
  · refine List.filterMap_eq_nil_iff.2 fun e he => ?_
    have hobserves : Observes e.call := ((h.extends .gather).forall_mem hes e he).1
    unfold Entry.reply?
    split
    · exact absurd rfl (Observes.ne_ask hobserves _)
    · rfl
  · exact keeps_of_ends_gather (hS ▸ Desk.keeps_input.mono fun c hc => Observes.ne_ask hc) h

/-- The questions of a run that goes on with gathered nodes are answered in turn. -/
theorem answeredInTurn_of_onGathered {β : Type} {check : List Observation → Except Error (List Observation)}
    {go : List Observation → Work (Desk σ) β} {Q : List Observation → β → List Errand → Prop}
    (hS : S.environment = Desk.environment site store dir) (haccounted : ∀ o, (act o).Accounted)
    (hheeds : ∀ eligible, (go eligible).Heeds act S (Q eligible)) {r : Except Stop β}
    (h : (onGathered check go).Ends S w r w') (hes : w.Gains w' es) :
    AnsweredInTurn w.state.input (es.filterMap Entry.reply?) w'.state.input := by
  have hsilent {r : Except Stop (List Observation)} (h : gather.Ends S w r w') :
      AnsweredInTurn w.state.input (es.filterMap Entry.reply?) w'.state.input := by
    obtain ⟨hreplies, hinput⟩ := silent_of_ends_gather hS h hes
    rw [hreplies, hinput]
    exact .nil _
  rcases ends_bind_iff.1 h with ⟨records, w₁, hgather, hrest⟩ | ⟨stop, hgather, -⟩
  swap
  · exact hsilent hgather
  rcases ends_ofExcept_bind_iff.1 hrest with ⟨eligible, -, hgo⟩ | ⟨e, -, -, rfl⟩
  swap
  · exact hsilent hgather
  obtain ⟨gathered, hgathered, -⟩ := (hgather.extends .gather).gains
  obtain ⟨ss, hstrides, -⟩ := hheeds eligible w₁ r w' hgo
  obtain rfl := hes.unique (hgathered.trans hstrides.gains)
  obtain ⟨hreplies, hinput⟩ := silent_of_ends_gather hS hgather hgathered
  have hevolves := (hstrides.evolves haccounted).of_gains hstrides.gains
  rw [List.filterMap_append, hreplies, List.nil_append, ← hinput]
  exact Desk.answeredInTurn_of_evolves (hS ▸ hevolves)

/-- The work ends, and its questions have been answered in turn. -/
def AsksInTurn (S : Setting (Desk σ)) (w : World (Desk σ)) (x : Work (Desk σ) α) : Prop :=
  ∃ r w', x.Ends S w r w' ∧ ∀ es, w.Gains w' es →
    AnsweredInTurn w.state.input (es.filterMap Entry.reply?) w'.state.input

namespace AsksInTurn

protected theorem apply {options : ApplyOptions} (hS : S.environment = Desk.environment site store dir)
    (hlimit : S.limit = none) : (Work.apply options).AsksInTurn S w := by
  obtain ⟨r, w', h, -⟩ := (Runs.apply hlimit : (Work.apply options).Runs S _) w
  exact ⟨r, w', h, fun es => answeredInTurn_of_onGathered hS (fun _ => .applyNode)
    (fun _ => .applyEligible hlimit) h⟩

protected theorem upgrade {options : UpgradeOptions}
    (hS : S.environment = Desk.environment site store dir) (hlimit : S.limit = none) :
    (Work.upgrade options).AsksInTurn S w := by
  obtain ⟨r, w', h, -⟩ := (Runs.upgrade hlimit : (Work.upgrade options).Runs S _) w
  exact ⟨r, w', h, fun es => answeredInTurn_of_onGathered hS (fun _ => .upgradeCall)
    (fun _ => .upgradeNodes hlimit) h⟩

protected theorem reset {options : ResetOptions} (hS : S.environment = Desk.environment site store dir) :
    (Work.reset options).AsksInTurn S w := by
  obtain ⟨r, w', h, -⟩ := (Runs.reset : (Work.reset options).Runs S _) w
  have hall : (onGathered .ok (resetNodes options {})).Ends S w r w' := h
  exact ⟨r, w', h, fun es => answeredInTurn_of_onGathered hS (fun _ => .resetNode)
    (fun _ => .resetNodes) hall⟩

protected theorem bootstrap {confirm : Bool} (hS : S.environment = Desk.environment site store dir)
    (hlimit : S.limit = none) : (Work.bootstrap confirm).AsksInTurn S w := by
  obtain ⟨r, w', h, -⟩ := (Runs.bootstrap hlimit : (Work.bootstrap confirm).Runs S _) w
  refine ⟨r, w', h, fun es hes => ?_⟩
  rcases ends_bootstrap_iff.1 h with ⟨-, h⟩ | ⟨e, -, -, rfl⟩
  · exact answeredInTurn_of_onGathered hS (fun _ => .applyNode) (fun _ => .bootstrapEligible hlimit) h hes
  · obtain rfl := hes.unique (.refl w')
    exact .nil _

end AsksInTurn
end Work

/-- A question reads lines up to the first that decides it, and no further. Of questions put one after the
other each is decided by the next of the lines that decide, and it is agreed to if this line says yes. This is
how the questions of every run are answered, whatever its site does. -/
theorem questions_take_one_decision_each :
    (∀ input, Console.Lines (Console.lines input) ∧ (Console.lines input).flatten = input ∧
      ∀ ls, Console.Lines ls → ls.flatten = input → ls = Console.lines input) ∧
    (∀ question input, Console.Asked question
      ((Console.lines input).takeWhile (!Console.decides ·))
      ((Console.lines input).dropWhile (!Console.decides ·)) (Console.ask question input)) ∧
    (∀ questions input, (series questions input).length = questions.length ∧
      ∀ i x, (series questions input)[i]? = some x → Console.InTurn input i x ∧
        (x.answer = some true ↔ ∃ line, ((Console.lines input).filter Console.decides)[i]? = some line ∧
          (Console.heard? line = some "y" ∨ Console.heard? line = some "yes"))) ∧
    ∀ (site : Site σ) (store : Store σ) (dir : String) (cluster : Cluster) (nodes : List Node)
      (signal : Signal) (w : World (Desk σ)),
      let S : Setting (Desk σ) := { environment := Desk.environment site store dir, cluster, nodes, signal }
      (∀ options, (Work.apply options).AsksInTurn S w) ∧ (∀ options, (Work.upgrade options).AsksInTurn S w) ∧
        (∀ options, (Work.reset options).AsksInTurn S w) ∧
        ∀ confirm, (Work.bootstrap confirm).AsksInTurn S w := by
  refine ⟨fun input => ⟨Console.lines_lines input, Console.flatten_lines input, ?_⟩, Console.asked, ?_, ?_⟩
  · rintro ls hls rfl
    exact hls.eq_lines.symm
  · intro questions input
    refine ⟨Console.length_series questions input, fun i x hx => ?_⟩
    have hturn := Console.series_inTurn hx
    exact ⟨hturn, hturn.answer.eq_some_true_iff⟩
  · intro site store dir cluster nodes signal w
    exact ⟨fun _ => .apply rfl rfl, fun _ => .upgrade rfl rfl, fun _ => .reset rfl, fun _ => .bootstrap rfl rfl⟩

end Rollout
