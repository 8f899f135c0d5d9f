import Rollout.Yaml.Text.Quotes
import Rollout.Yaml.Writing

/-!
# Plain values read back

`Reading.total` is the text that a value would have if it went on here. Each character of a plain
value adds itself to it, so a plain value is read as the text it was written from.
-/

namespace Rollout.Yaml

variable {c p : Char} {cs tail : List Char} {m : Mark}

/-! ## Writable characters -/

theorem isWritable_iff : isWritable c = true ↔
    c.toNat = 0x0A ∨ (0x20 ≤ c.toNat ∧ c.toNat ≤ 0x7E) ∨ (0xA0 ≤ c.toNat ∧ c.toNat ≤ 0xD7FF) ∨
      (0xE000 ≤ c.toNat ∧ c.toNat ≤ 0xFFFD ∧ c.toNat ≠ 0xFEFF) ∨ 0x10000 ≤ c.toNat := by
  simp [isWritable, or_assoc, and_assoc]

theorem isAllowed_of_isWritable (h : isWritable c = true) : isAllowed c.toNat = true := by
  have hmax : c.toNat < 0x110000 := by
    have hvalid := c.valid
    rw [UInt32.isValidChar, Char.toNat_val] at hvalid
    rcases hvalid with hlow | hhigh <;> omega
  rw [isWritable_iff] at h
  simp only [isAllowed, Bool.or_eq_true, Bool.and_eq_true, beq_iff_eq, decide_eq_true_eq]
  omega

theorem ne_of_isWritable (h : isWritable c = true) (hp : isWritable p = false) : c ≠ p := by
  rintro rfl
  rw [h] at hp
  cases hp

theorem isSpaceOrTab_of_isWritable (h : isWritable c = true) : isSpaceOrTab c = (c == ' ') := by
  have htab : (c == '\t') = false := beq_eq_false_iff_ne.2 (ne_of_isWritable h (by decide))
  rw [isSpaceOrTab, htab, Bool.or_false]

theorem isBreak_of_isWritable (h : isWritable c = true) (hbreak : isBreak c = true) :
    c = '\n' ∨ c = '\u2028' ∨ c = '\u2029' := by
  have hreturn := ne_of_isWritable h (p := '\r') (by decide)
  have hnext := ne_of_isWritable h (p := '\u0085') (by decide)
  simpa [isBreak, hreturn, hnext, or_assoc] using hbreak

/-! ## What has been read -/

namespace Reading

variable {r : Reading}

/-- The text read so far with the white space behind it, as if another word followed. -/
def total (r : Reading) : List Char := r.read.reverse ++ r.gap.fold

theorem text_of_gap_empty (h : r.gap = .empty) : r.text = String.ofList r.total := by
  simp [text, total, h, Gap.empty, Gap.fold]

@[simp] theorem total_addChar : (r.addChar c).total = r.total ++ [c] := by
  simp [total, addChar, Gap.empty, Gap.fold]

@[simp] theorem text_addChars_nil : (r.addChars []).text = String.ofList r.total := by
  simp [text, total, addChars]

@[simp] theorem gap_addChar : (r.addChar c).gap = .empty := rfl

theorem hasBreak_addBlank : (r.addBlank c).gap.hasBreak = r.gap.hasBreak := by
  unfold addBlank Gap.addBlank
  cases r.gap <;> rfl

theorem total_addBlank (h : r.gap.hasBreak = false) : (r.addBlank c).total = r.total ++ [c] := by
  unfold total addBlank Gap.addBlank
  cases hgap : r.gap with
  | blanks chars => simp [Gap.fold]
  | breaks first more => simp [hgap, Gap.hasBreak] at h

/-- Indentation is no part of the text. -/
theorem addBlank_of_hasBreak (h : r.gap.hasBreak = true) : r.addBlank c = r := by
  cases r with
  | mk read gap =>
    cases gap with
    | blanks chars => cases h
    | breaks first more => rfl

/-- A character of a line: a blank waits for the next word. -/
def feed (r : Reading) (c : Char) : Reading := if c = ' ' then r.addBlank c else r.addChar c

theorem hasBreak_feed (h : r.gap.hasBreak = false) : (r.feed c).gap.hasBreak = false := by
  unfold feed
  split
  · rw [hasBreak_addBlank, h]
  · rfl

theorem total_feed (h : r.gap.hasBreak = false) : (r.feed c).total = r.total ++ [c] := by
  unfold feed
  split
  · exact total_addBlank h
  · exact total_addChar

theorem total_foldl_feed (h : r.gap.hasBreak = false) :
    (cs.foldl feed r).total = r.total ++ cs := by
  induction cs generalizing r with
  | nil => simp
  | cons c rest ih => rw [List.foldl_cons, ih (hasBreak_feed h), total_feed h, List.append_assoc,
      List.singleton_append]

theorem gap_foldl_feed (hne : cs ≠ []) (hlast : cs.getLast?.any (· == ' ') = false) :
    (cs.foldl feed r).gap = .empty := by
  obtain ⟨front, last, rfl⟩ := List.eq_nil_or_concat cs |>.resolve_left hne
  have hword : last ≠ ' ' := by simpa using hlast
  simp [feed, hword]

end Reading

/-! ## Steps of a plain value -/

variable {least : Nat} {start : Mark} {r : Reading}

theorem Cursor.atDocumentMarker_of_column (h : 0 < m.column) :
    (⟨cs, m⟩ : Cursor).atDocumentMarker = false := by
  have hcolumn : (m.column == 0) = false := by
    rw [beq_eq_false_iff_ne]
    omega
  simp [atDocumentMarker, column, hcolumn]

/-- A character of a plain value that neither ends it nor starts a comment. -/
theorem plainFrom_feed (hwritable : isWritable c = true) (hbreak : isBreak c = false)
    (hgap : r.gap.hasBreak = false) (hmarker : (⟨c :: cs, m⟩ : Cursor).atDocumentMarker = false)
    (hcomment : c = '#' → r.gap = .empty) (hcolon : c = ':' → endsWord cs = false) :
    plainFrom false least start r m (c :: cs) =
      plainFrom false least start (r.feed c) m.next cs := by
  have hblank := isSpaceOrTab_of_isWritable hwritable
  have htab : (c == '\t') = false := beq_eq_false_iff_ne.2 (ne_of_isWritable hwritable (by decide))
  rw [plainFrom]
  · unfold Reading.feed
    by_cases hspace : c = ' '
    · simp [hspace, isBreak, isSpaceOrTab]
    · have hends : endsAtGap false least r.gap ⟨c :: cs, m⟩ = false := by
        simp only [endsAtGap, hgap, hmarker, Bool.false_and, Bool.false_or, List.head?_cons]
        by_cases hnumber : c = '#'
        · simp [hcomment hnumber, Gap.isEmpty, Gap.empty]
        · simp [hnumber]
      have hbad : badColon false (c :: cs) = false := by
        unfold badColon
        split <;> rfl
      have hplain : endsPlain false (c :: cs) = false := by
        unfold endsPlain
        split
        · next heq =>
          cases heq
          exact hcolon rfl
        · rfl
        · next heq => cases heq
      simp [hblank, hbreak, hspace, hends, hbad, hplain]
  · rintro rest rfl
    cases hbreak

theorem hasIndicator_cons_false {a b : Char} (h : hasIndicator (a :: b :: cs) = false) :
    (b = ':' → endsWord cs = false) ∧ (b = '#' → isSpaceOrTab a = false) ∧
      hasIndicator (b :: cs) = false := by
  simp only [hasIndicator, Bool.or_eq_false_iff, Bool.and_eq_false_iff] at h
  obtain ⟨⟨hcolon, hnumber⟩, hrest⟩ := h
  refine ⟨?_, ?_, hrest⟩
  · rintro rfl
    simpa using (hcolon.resolve_left (by decide)).1
  · rintro rfl
    have hword := (hnumber.resolve_left (by decide)).1
    simp only [endsWord, Bool.or_eq_false_iff] at hword
    exact hword.1

theorem endsWord_append (h : endsWord cs = false) : endsWord (cs ++ tail) = false := by
  cases cs with
  | nil => cases h
  | cons c rest => exact h

theorem skipColumns_succ (n : Nat) : skipColumns m.next n = skipColumns m (n + 1) := by
  simp only [skipColumns, Mark.next]
  congr 1 <;> omega

/-- The characters behind the first one of a plain value. `p` is the one before them. -/
theorem plainFrom_append (hwritable : ∀ c ∈ cs, isWritable c = true)
    (hbreak : ∀ c ∈ cs, isBreak c = false) (hindicator : hasIndicator (p :: cs) = false)
    (hgap : r.gap.hasBreak = false) (hblank : isSpaceOrTab p = false → r.gap = .empty)
    (hcolumn : 0 < m.column) :
    plainFrom false least start r m (cs ++ tail) =
      plainFrom false least start (cs.foldl Reading.feed r) (skipColumns m cs.length) tail := by
  induction cs generalizing p r m with
  | nil => rfl
  | cons c rest ih =>
    obtain ⟨hcolon, hnumber, hrest⟩ := hasIndicator_cons_false hindicator
    have hc : isWritable c = true := hwritable c List.mem_cons_self
    rw [List.cons_append, plainFrom_feed hc (hbreak c List.mem_cons_self) hgap
      (Cursor.atDocumentMarker_of_column hcolumn) (fun h => hblank (hnumber h))
      (fun h => endsWord_append (hcolon h))]
    rw [ih (p := c) (fun d hd => hwritable d (List.mem_cons_of_mem c hd))
      (fun d hd => hbreak d (List.mem_cons_of_mem c hd)) hrest (Reading.hasBreak_feed hgap) ?_
      (Nat.succ_pos _), skipColumns_succ, List.foldl_cons, List.length_cons]
    intro hword
    rw [isSpaceOrTab_of_isWritable hc, beq_eq_false_iff_ne] at hword
    simp [Reading.feed, hword]

/-- White space behind a value that the next line, indented less, ends. -/
theorem plainFrom_blanks {n : Nat} (hgap : r.gap.hasBreak = true) :
    plainFrom false least start r m (blanks n ++ tail) =
      plainFrom false least start r (skipColumns m n) tail := by
  induction n generalizing m with
  | zero => rfl
  | succ n ih =>
    rw [blanks, List.replicate_succ, List.cons_append, plainFrom]
    · simp only [isBreak, isSpaceOrTab, Reading.addBlank_of_hasBreak hgap]
      rw [← skipColumns_succ]
      exact ih
    · simp

/-! ## Whole values -/

/-- What may follow white space in front of a token: no white space, no comment. -/
def startsToken : List Char → Bool
  | [] => true
  | c :: _ => !isSpaceOrTab c && !isBreak c && c != '#' && c != '\ufeff'

theorem leadsIndicator_cons_false (h : leadsIndicator (c :: cs) = false) :
    c ∉ "#,[]\x7b\x7d&*!|>'\"%@\x60".toList ∧
      (c = '?' ∨ c = ':' ∨ c = '-' → endsWord cs = false) := by
  unfold leadsIndicator at h
  split at h
  · cases h
  · cases h
  · next heq =>
    cases heq
    simp only [Bool.or_eq_false_iff, Bool.and_eq_false_iff, beq_eq_false_iff_ne] at h
    refine ⟨fun hmem => ?_, fun hc => ?_⟩
    · exact Bool.eq_false_iff.1 h.1 (List.contains_iff_mem.2 hmem)
    · rcases h.2 with hne | hword
      · rcases hc with rfl | rfl | rfl
        · exact absurd rfl hne.1.1
        · exact absurd rfl hne.1.2
        · exact absurd rfl hne.2
      · exact hword.1
  · next heq => cases heq

/-- What `Written.plainAllowed` asks of a text. -/
structure PlainText (cs : List Char) : Prop where
  writable : ∀ c ∈ cs, isWritable c = true
  not_break : ∀ c ∈ cs, isBreak c = false
  head : cs.head?.any (· == ' ') = false
  last : cs.getLast?.any (· == ' ') = false
  leads : leadsIndicator cs = false
  inner : hasIndicator cs = false

theorem PlainText.of_plainAllowed (h : Written.plainAllowed cs = true) : PlainText cs := by
  simp only [Written.plainAllowed, Written.special, Written.multiline, Written.edges,
    Bool.and_eq_true, Bool.not_eq_true', Bool.or_eq_false_iff, List.any_eq_false,
    Bool.not_eq_true, Bool.not_eq_false] at h
  obtain ⟨⟨⟨⟨hwritable, hbreak⟩, hhead, hlast⟩, hleads⟩, hinner⟩ := h
  exact ⟨hwritable, hbreak, hhead, hlast, hleads, hinner⟩

theorem plainFrom_text (h : PlainText cs) (hne : cs ≠ [])
    (hmarker : (⟨cs ++ tail, m⟩ : Cursor).atDocumentMarker = false) :
    plainFrom false least start {} m (cs ++ tail) =
      plainFrom false least start (cs.foldl Reading.feed {}) (skipColumns m cs.length) tail := by
  cases cs with
  | nil => exact absurd rfl hne
  | cons c rest =>
    obtain ⟨hlead, hword⟩ := leadsIndicator_cons_false h.leads
    have hspace : c ≠ ' ' := by simpa using h.head
    rw [List.cons_append] at hmarker ⊢
    rw [plainFrom_feed (h.writable c List.mem_cons_self) (h.not_break c List.mem_cons_self) rfl
      hmarker (fun hc => absurd (by rw [hc]; decide) hlead)
      (fun hc => endsWord_append (hword (.inr (.inl hc))))]
    rw [plainFrom_append (fun d hd => h.writable d (List.mem_cons_of_mem c hd))
      (fun d hd => h.not_break d (List.mem_cons_of_mem c hd)) h.inner (Reading.hasBreak_feed rfl)
      (fun _ => by simp [Reading.feed, hspace]) (Nat.succ_pos _), skipColumns_succ,
      List.foldl_cons, List.length_cons]

theorem text_of_plainText (h : PlainText cs) (hne : cs ≠ []) :
    (cs.foldl Reading.feed {}).text = String.ofList cs := by
  rw [Reading.text_of_gap_empty (Reading.gap_foldl_feed hne h.last), Reading.total_foldl_feed rfl]
  rfl

/-- A plain value is read back; reading goes on to the next line, which is indented less. -/
theorem readPlain_value {n : Nat} (h : PlainText cs) (hne : cs ≠ []) (hcolumn : 0 < m.column)
    (hless : n < least) (htail : startsToken tail = true) :
    readPlain false least ⟨cs ++ '\n' :: (blanks n ++ tail), m⟩ = .ok (String.ofList cs, true,
      ⟨tail, skipColumns ((skipColumns m cs.length).nextLine 1) n⟩) := by
  have hgap : (cs.foldl Reading.feed {}).gap = .empty := Reading.gap_foldl_feed hne h.last
  obtain ⟨r, hr⟩ : ∃ r, (cs.foldl Reading.feed {}).addBreak '\n' = r := ⟨_, rfl⟩
  have hbreak : r.gap.hasBreak = true := by
    rw [← hr, Reading.addBreak, hgap]
    rfl
  have hread : r.text = String.ofList cs := by
    rw [← text_of_plainText h hne, ← hr]
    rfl
  have hstop (next : Mark) : plainFrom false least m r (skipColumns (next.nextLine 1) n) tail =
      .ok (r, ⟨tail, skipColumns (next.nextLine 1) n⟩) := by
    cases tail with
    | nil => rfl
    | cons c rest =>
      simp only [startsToken, Bool.and_eq_true, Bool.not_eq_true'] at htail
      have hends :
          endsAtGap false least r.gap ⟨c :: rest, skipColumns (next.nextLine 1) n⟩ = true := by
        have hcolumn : (⟨c :: rest, skipColumns (next.nextLine 1) n⟩ : Cursor).column < least := by
          simpa [Cursor.column, skipColumns, Mark.nextLine] using hless
        simp [endsAtGap, hbreak, hcolumn]
      rw [plainFrom]
      · simp [htail, hends]
      · rintro rest' rfl
        simp [isBreak] at htail
  simp only [readPlain]
  rw [plainFrom_text h hne (Cursor.atDocumentMarker_of_column hcolumn), plainFrom]
  · change (plainFrom false least m _ _ (blanks n ++ tail) >>= _) = _
    rw [hr, plainFrom_blanks hbreak, hstop]
    change Except.ok (_, _, _) = _
    rw [hread, hbreak]
  · simp

theorem readPlain_key (least : Nat) (h : PlainText cs) (hne : cs ≠ [])
    (hmarker : (⟨cs ++ ':' :: tail, m⟩ : Cursor).atDocumentMarker = false)
    (htail : endsWord tail = true) :
    readPlain false least ⟨cs ++ ':' :: tail, m⟩ = .ok (String.ofList cs, false,
      ⟨':' :: tail, skipColumns m cs.length⟩) := by
  have hgap : (cs.foldl Reading.feed {}).gap = .empty := Reading.gap_foldl_feed hne h.last
  have hstop : plainFrom false least m (cs.foldl Reading.feed {}) (skipColumns m cs.length)
      (':' :: tail) =
        .ok (cs.foldl Reading.feed {}, ⟨':' :: tail, skipColumns m cs.length⟩) := by
    have hmark : (⟨':' :: tail, skipColumns m cs.length⟩ : Cursor).atDocumentMarker = false := by
      simp [Cursor.atDocumentMarker]
    have hends : endsAtGap false least .empty ⟨':' :: tail, skipColumns m cs.length⟩ = false := by
      simp [endsAtGap, hmark, Gap.hasBreak, Gap.isEmpty, Gap.empty]
    have hbad : badColon false (':' :: tail) = false := by
      unfold badColon
      split <;> rfl
    rw [plainFrom]
    · simp [isBreak, isSpaceOrTab, hgap, hends, hbad, endsPlain, htail]
    · simp
  simp only [readPlain, plainFrom_text h hne hmarker, hstop]
  change Except.ok (_, _, _) = _
  rw [text_of_plainText h hne, hgap]
  rfl

end Rollout.Yaml
