import Rollout.Proofs.Yaml.Words

/-!
# Quoted values read back

What stands between the quotes is read as the text it was written from: in single quotes with line
separators and their indentation, in double quotes with every escape.
-/

namespace Rollout.Yaml

variable {c p : Char} {cs tail : List Char} {m start : Mark} {r : Reading} {single : Bool}

/-! ## Steps -/

theorem Cursor.atDocumentMarker_of_head (m : Mark) (cs : List Char) (hdash : c ≠ '-')
    (hdot : c ≠ '.') :
    (⟨c :: cs, m⟩ : Cursor).atDocumentMarker = false := by
  unfold atDocumentMarker
  split
  · next heq => exact absurd (List.cons.inj heq).1 hdash
  · next heq => exact absurd (List.cons.inj heq).1 hdot
  · exact Bool.and_false _

theorem quotedFrom_blank :
    quotedFrom single start r m (' ' :: cs) =
      quotedFrom single start (r.addBlank ' ') m.next cs := by
  have hmarker : (⟨' ' :: cs, m⟩ : Cursor).atDocumentMarker = false :=
    Cursor.atDocumentMarker_of_head m _ (by decide) (by decide)
  rw [quotedFrom.eq_def]
  simp [hmarker, isBreak, isSpaceOrTab]

theorem quotedFrom_break (hbreak : isBreak c = true) (hreturn : c ≠ '\r') :
    quotedFrom single start r m (c :: cs) =
      quotedFrom single start (r.addBreak c) (m.nextLine 1) cs := by
  have hmarker : (⟨c :: cs, m⟩ : Cursor).atDocumentMarker = false := by
    refine Cursor.atDocumentMarker_of_head m _ ?_ ?_ <;> rintro rfl <;> cases hbreak
  rw [quotedFrom.eq_def]
  simp [hmarker, hbreak, hreturn]

theorem quotedFrom_char (hmarker : (⟨c :: cs, m⟩ : Cursor).atDocumentMarker = false)
    (hbreak : isBreak c = false) (hblank : isSpaceOrTab c = false)
    (hsingle : single = true → c ≠ '\'') (hdouble : single = false → c ≠ '"' ∧ c ≠ '\\') :
    quotedFrom single start r m (c :: cs) =
      quotedFrom single start (r.addChar c) m.next cs := by
  have hreturn : c ≠ '\r' := by
    rintro rfl
    cases hbreak
  rw [quotedFrom.eq_def]
  cases single with
  | true => simp [hmarker, hreturn, hbreak, hblank, hsingle rfl]
  | false => simp [hmarker, hreturn, hbreak, hblank, hdouble rfl]

/-! ## Single quotes -/

/-- Indentation behind a line break is no part of the text. -/
theorem quotedFrom_blanks {n : Nat} (hgap : r.gap.hasBreak = true) :
    quotedFrom single start r m (blanks n ++ tail) =
      quotedFrom single start r (skipColumns m n) tail := by
  induction n generalizing m with
  | zero => rfl
  | succ n ih =>
    rw [← skipColumns_succ, ← ih, blanks, List.replicate_succ, List.cons_append, quotedFrom_blank,
      Reading.addBlank_of_hasBreak hgap]
    rfl

theorem quotedFrom_closing (hcolumn : 0 < m.column) (htail : tail.head? ≠ some '\'') :
    quotedFrom true start r m ('\'' :: tail) = .ok (r.addChars [], ⟨tail, m.next⟩) := by
  rw [quotedFrom.eq_def]
  simp [Cursor.atDocumentMarker_of_column hcolumn, isBreak, isSpaceOrTab, htail]

theorem quotedFrom_quote (hcolumn : 0 < m.column) :
    quotedFrom true start r m ('\'' :: '\'' :: cs) =
      quotedFrom true start (r.addChar '\'') (skipColumns m 2) cs := by
  rw [quotedFrom.eq_def]
  simp [Cursor.atDocumentMarker_of_column hcolumn, isBreak, isSpaceOrTab]

theorem anyAdjacent_cons_false {f g : Char → Bool} {a b : Char}
    (h : anyAdjacent f g (a :: b :: cs) = false) :
    (f a = true → g b = false) ∧ anyAdjacent f g (b :: cs) = false := by
  simp only [anyAdjacent, Bool.or_eq_false_iff, Bool.and_eq_false_iff] at h
  refine ⟨fun ha => h.1.resolve_left ?_, h.2⟩
  simp [ha]

/-- Reading between single quotes, behind the character `p`. The breaks are line separators: a line
feed would have been folded. -/
structure Quoting (p : Char) (r : Reading) (m : Mark) : Prop where
  breaks : r.gap.hasBreak = true → isBreak p = true
  blanks : r.gap.hasBreak = false → r.gap = .empty ∨ p = ' '
  unfolded : ∀ first more, r.gap = .breaks first more → first ≠ ['\n']
  column : r.gap.hasBreak = false → 0 < m.column

/-- A line separator stays in the text, for there is no blank before it. -/
theorem Quoting.addBreak (h : Quoting p r m) (hseparator : c = '\u2028' ∨ c = '\u2029')
    (hword : p ≠ ' ') :
    (r.addBreak c).total = r.total ++ [c] ∧ (r.addBreak c).gap.hasBreak = true ∧
      Quoting c (r.addBreak c) (m.nextLine 1) := by
  have htext : breakText c = [c] := by
    rcases hseparator with rfl | rfl <;> rfl
  have hline : c ≠ '\n' := by
    rcases hseparator with rfl | rfl <;> decide
  have hbreak : isBreak c = true := by
    rcases hseparator with rfl | rfl <;> decide
  cases r with
  | mk read gap =>
  cases gap with
  | blanks chars =>
    obtain hgap | hspace := h.blanks rfl
    · cases hgap
      refine ⟨?_, rfl, fun _ => hbreak, fun h => absurd h.symm Bool.false_ne_true, ?_,
        fun h => absurd h.symm Bool.false_ne_true⟩
      · simp [Reading.total, Reading.addBreak, Gap.addBreak, Gap.fold, htext, hline]
      · rintro first more hgap
        cases hgap
        simp [htext, hline]
    · exact absurd hspace hword
  | breaks first more =>
    have hfirst := h.unfolded first more rfl
    refine ⟨?_, rfl, fun _ => hbreak, fun h => absurd h.symm Bool.false_ne_true, ?_,
      fun h => absurd h.symm Bool.false_ne_true⟩
    · simp [Reading.total, Reading.addBreak, Gap.addBreak, Gap.fold, htext, hfirst]
    · rintro first' more' hgap
      cases hgap
      exact hfirst

theorem Quoting.addChar (hcolumn : 0 < m.column) : Quoting c (r.addChar c) m :=
  ⟨nofun, fun _ => .inl rfl, nofun, fun _ => hcolumn⟩

theorem Quoting.addBlank (hgap : r.gap.hasBreak = false) (hcolumn : 0 < m.column) :
    Quoting ' ' (r.addBlank ' ') m := by
  have hblank : (r.addBlank ' ').gap.hasBreak = false := by rw [Reading.hasBreak_addBlank, hgap]
  refine ⟨fun h => ?_, fun _ => .inr rfl, fun first more h => ?_, fun _ => hcolumn⟩
  · rw [hblank] at h
    cases h
  · rw [h] at hblank
    cases hblank

theorem Quoting.indentation (start : Mark) {indent : Nat} (h : Quoting p r m)
    (hindent : 0 < indent) :
    ∃ m', 0 < m'.column ∧ ∀ cs,
      quotedFrom true start r m ((if r.gap.hasBreak then Yaml.blanks indent else []) ++ cs) =
        quotedFrom true start r m' cs := by
  cases hgap : r.gap.hasBreak with
  | false => exact ⟨m, h.column hgap, fun cs => rfl⟩
  | true =>
    refine ⟨skipColumns m indent, ?_, fun cs => quotedFrom_blanks hgap⟩
    simp only [skipColumns]
    omega

/-- What `Written.singleAllowed` asks of a text of one line. -/
structure SingleText (p : Char) (cs : List Char) : Prop where
  writable : ∀ c ∈ cs, isWritable c = true
  not_line : '\n' ∉ cs
  after_break : anyAdjacent isBreak Written.isSpace (p :: cs) = false
  before_break : anyAdjacent Written.isSpace isBreak (p :: cs) = false

theorem SingleText.of_cons (h : SingleText p (c :: cs)) : SingleText c cs :=
  ⟨fun d hd => h.writable d (List.mem_cons_of_mem c hd),
    fun hmem => h.not_line (List.mem_cons_of_mem c hmem),
    (anyAdjacent_cons_false h.after_break).2, (anyAdjacent_cons_false h.before_break).2⟩

theorem SingleText.separator (h : SingleText p (c :: cs)) (hbreak : isBreak c = true) :
    (c = '\u2028' ∨ c = '\u2029') ∧ p ≠ ' ' := by
  refine ⟨?_, ?_⟩
  · refine (isBreak_of_isWritable (h.writable c List.mem_cons_self) hbreak).resolve_left ?_
    rintro rfl
    exact h.not_line List.mem_cons_self
  · rintro rfl
    have hnot := (anyAdjacent_cons_false h.before_break).1 rfl
    rw [hbreak] at hnot
    cases hnot

theorem quotedFrom_singleChar (start : Mark) (hc : isWritable c = true) (hbreak : isBreak c = false)
    (hcolumn : 0 < m.column) (hgap : c = ' ' → r.gap.hasBreak = false) :
    ∃ r' m', Quoting c r' m' ∧ r'.gap.hasBreak = false ∧ r'.total = r.total ++ [c] ∧
      ∀ cs, quotedFrom true start r m ((if c == '\'' then ['\'', '\''] else [c]) ++ cs) =
        quotedFrom true start r' m' cs := by
  by_cases hquote : c = '\''
  · subst hquote
    exact ⟨r.addChar '\'', skipColumns m 2, .addChar (Nat.add_pos_left hcolumn 2), rfl,
      r.total_addChar, fun cs => quotedFrom_quote hcolumn⟩
  rw [if_neg (by simpa using hquote)]
  by_cases hspace : c = ' '
  · subst hspace
    exact ⟨r.addBlank ' ', m.next, .addBlank (hgap rfl) (Nat.succ_pos _),
      r.hasBreak_addBlank.trans (hgap rfl), r.total_addBlank (hgap rfl), fun cs => quotedFrom_blank⟩
  · have hblank : isSpaceOrTab c = false := by
      rw [isSpaceOrTab_of_isWritable hc]
      simpa using hspace
    exact ⟨r.addChar c, m.next, .addChar (Nat.succ_pos _), rfl, r.total_addChar, fun cs =>
      quotedFrom_char (Cursor.atDocumentMarker_of_column hcolumn) hbreak hblank (fun _ => hquote)
        (fun h => by cases h)⟩

theorem quotedFrom_single (start : Mark) {indent : Nat} (h : SingleText p cs) (hr : Quoting p r m)
    (hindent : 0 < indent) (htail : tail.head? ≠ some '\'') :
    ∃ r' m', quotedFrom true start r m (singleQuotedFrom indent r.gap.hasBreak cs ++ tail) =
      .ok (r', ⟨tail, m'⟩) ∧ r'.text = String.ofList (r.total ++ cs) := by
  induction cs generalizing p r m with
  | nil =>
    obtain ⟨m', hcolumn, hindented⟩ := hr.indentation start hindent
    refine ⟨r.addChars [], m'.next, ?_, Reading.text_addChars_nil.trans (by rw [List.append_nil])⟩
    rw [singleQuotedFrom, List.append_assoc, hindented]
    exact quotedFrom_closing hcolumn htail
  | cons c rest ih =>
    have hc := h.writable c List.mem_cons_self
    by_cases hbreak : isBreak c = true
    · obtain ⟨hseparator, hword⟩ := h.separator hbreak
      obtain ⟨htotal, hgap, hr'⟩ := hr.addBreak hseparator hword
      obtain ⟨r', m', hrest, htext⟩ := ih h.of_cons hr'
      refine ⟨r', m', ?_, ?_⟩
      · rw [hgap] at hrest
        rw [singleQuotedFrom, if_pos hbreak, List.cons_append,
          quotedFrom_break hbreak (ne_of_isWritable hc (by decide)), hrest]
      · rw [htext, htotal, List.append_assoc, List.singleton_append]
    · have hbreak : isBreak c = false := by simpa using hbreak
      -- No line starts with a blank: it would be taken for indentation.
      have hspace : c = ' ' → r.gap.hasBreak = false := by
        rintro rfl
        cases hgap : r.gap.hasBreak with
        | false => rfl
        | true => cases (anyAdjacent_cons_false h.after_break).1 (hr.breaks hgap)
      obtain ⟨m₁, hcolumn, hindented⟩ := hr.indentation start hindent
      obtain ⟨r₁, m₂, hr₁, hgap, htotal, hstep⟩ :=
        quotedFrom_singleChar start hc hbreak hcolumn hspace
      obtain ⟨r', m', hrest, htext⟩ := ih h.of_cons hr₁
      refine ⟨r', m', ?_, ?_⟩
      · rw [hgap] at hrest
        rw [singleQuotedFrom, if_neg (by simp [hbreak]), List.append_assoc, List.append_assoc,
          hindented, hstep, hrest]
      · rw [htext, htotal, List.append_assoc, List.singleton_append]

theorem SingleText.of_singleAllowed (h : Written.singleAllowed cs = true) (hline : '\n' ∉ cs) :
    SingleText '\'' cs := by
  simp only [Written.singleAllowed, Written.special, Bool.and_eq_true, Bool.not_eq_true',
    List.any_eq_false, Bool.not_eq_false] at h
  obtain ⟨⟨hwritable, hafter⟩, hbefore⟩ := h
  refine ⟨hwritable, hline, ?_, ?_⟩
  · cases cs with
    | nil => rfl
    | cons c rest => exact hafter
  · cases cs with
    | nil => rfl
    | cons c rest => exact hbefore

theorem readQuoted_single (indent : Nat) (tail : List Char)
    (h : Written.singleAllowed cs = true) (hline : '\n' ∉ cs)
    (hindent : 0 < indent) (htail : tail.head? ≠ some '\'') :
    ∃ m', readQuoted true ⟨singleQuoted indent cs ++ tail, m⟩ =
      .ok (String.ofList cs, ⟨tail, m'⟩) := by
  obtain ⟨r', m', hread, htext⟩ := quotedFrom_single m (r := {}) (m := m.next)
    (.of_singleAllowed h hline) ⟨nofun, fun _ => .inl rfl, nofun, fun _ => Nat.succ_pos _⟩ hindent
    htail
  refine ⟨m', ?_⟩
  change (quotedFrom true m {} m.next (singleQuotedFrom indent false cs ++ tail) >>= _) = _
  rw [show quotedFrom true m {} m.next (singleQuotedFrom indent false cs ++ tail) = _ from hread]
  change Except.ok (_, _) = _
  rw [htext]
  rfl

/-! ## Double quotes -/

/-- Is the escape of a character one that the reader takes for that character? -/
def isReadBack (c : Char) : Bool :=
  match escaped c with
  | '\\' :: e :: digits =>
    !isBreak e && match escape? e with
      | some (.char d) => digits.isEmpty && d == c
      | some (.code n) =>
        digits.length == n && hexCode? n digits == some c.toNat && codeChar c.toNat == some c
      | none => false
  | _ => false

/-- The characters that are not written as they are: control characters, the byte order mark, the
two code points that are no characters, and the line breaks. -/
theorem toNat_of_not_written (h : (isWritable c && !isBreak c) = false) :
    c.toNat < 0xA0 ∨ c.toNat = 0x2028 ∨ c.toNat = 0x2029 ∨ c.toNat = 0xFEFF ∨
      c.toNat = 0xFFFE ∨ c.toNat = 0xFFFF := by
  rw [Bool.and_eq_false_iff, Bool.not_eq_false'] at h
  have hvalid := c.valid
  rw [UInt32.isValidChar, Char.toNat_val] at hvalid
  rcases h with hwritable | hbreak
  · have hnot := isWritable_iff (c := c)
    rw [hwritable] at hnot
    simp only [Bool.false_eq_true, false_iff] at hnot
    rcases hvalid with hlow | hhigh <;> omega
  · simp only [isBreak, Bool.or_eq_true, beq_iff_eq] at hbreak
    obtain (((rfl | rfl) | rfl) | rfl) | rfl := hbreak <;> decide

theorem of_not_written {p : Char → Bool} (h : (isWritable c && !isBreak c) = false)
    (hlow : ∀ v < 0xA0, (isWritable (Char.ofNat v) && !isBreak (Char.ofNat v)) = false →
      p (Char.ofNat v) = true)
    (hhigh : ∀ v ∈ [0x2028, 0x2029, 0xFEFF, 0xFFFE, 0xFFFF], p (Char.ofNat v) = true) :
    p c = true := by
  have hcode := toNat_of_not_written h
  rw [← c.ofNat_toNat] at h ⊢
  rcases hcode with hv | hv
  · exact hlow _ hv h
  · exact hhigh _ (by simpa using hv)

theorem isReadBack_of_not_written (h : (isWritable c && !isBreak c) = false) :
    isReadBack c = true :=
  of_not_written h (by decide +kernel) (by decide +kernel)

theorem quotedFrom_escape {e d : Char} (hcolumn : 0 < m.column) (hbreak : isBreak e = false)
    (he : escape? e = some (.char d)) :
    quotedFrom false start r m ('\\' :: e :: cs) =
      quotedFrom false start (r.addChar d) (skipColumns m 2) cs := by
  have hreturn : e ≠ '\r' := by
    rintro rfl
    cases hbreak
  have hslash : isBreak '\\' = false := by decide
  rw [quotedFrom.eq_def]
  simp [Cursor.atDocumentMarker_of_column hcolumn, hslash, isSpaceOrTab, hreturn, hbreak, he]

theorem quotedFrom_code {e d : Char} {n v : Nat} {digits : List Char} (hcolumn : 0 < m.column)
    (hbreak : isBreak e = false) (he : escape? e = some (.code n)) (hlength : digits.length = n)
    (hcode : hexCode? n digits = some v) (hd : codeChar v = some d) :
    quotedFrom false start r m ('\\' :: e :: digits ++ cs) =
      quotedFrom false start (r.addChar d) (skipColumns m (n + 2)) cs := by
  have hreturn : e ≠ '\r' := by
    rintro rfl
    cases hbreak
  have hcode : hexCode? n (digits ++ cs) = some v := by
    rw [← hcode, hexCode?, hexCode?, List.take_left' hlength, ← hlength, List.take_length]
  have hslash : isBreak '\\' = false := by decide
  rw [quotedFrom.eq_def]
  simp [Cursor.atDocumentMarker_of_column hcolumn, hslash, isSpaceOrTab, hreturn, hbreak, he,
    hcode, hd, List.drop_left' hlength]

theorem quotedFrom_readBack (h : isReadBack c = true) (hcolumn : 0 < m.column) :
    ∃ m', 0 < m'.column ∧ ∀ cs, quotedFrom false start r m (escaped c ++ cs) =
      quotedFrom false start (r.addChar c) m' cs := by
  unfold isReadBack at h
  split at h
  · next e digits hescaped =>
    rw [hescaped]
    simp only [Bool.and_eq_true, Bool.not_eq_true'] at h
    obtain ⟨hbreak, h⟩ := h
    split at h
    · next d he =>
      simp only [Bool.and_eq_true, List.isEmpty_iff, beq_iff_eq] at h
      obtain ⟨rfl, rfl⟩ := h
      exact ⟨skipColumns m 2, Nat.add_pos_left hcolumn 2,
        fun cs => quotedFrom_escape hcolumn hbreak he⟩
    · next n he =>
      simp only [Bool.and_eq_true, beq_iff_eq] at h
      exact ⟨skipColumns m (n + 2), Nat.add_pos_left hcolumn _,
        fun cs => quotedFrom_code hcolumn hbreak he h.1.1 h.1.2 h.2⟩
    · cases h
  · cases h

theorem quotedFrom_escaped (start : Mark) (c : Char) (hgap : r.gap.hasBreak = false)
    (hcolumn : 0 < m.column) :
    ∃ r' m', r'.gap.hasBreak = false ∧ 0 < m'.column ∧ r'.total = r.total ++ [c] ∧
      ∀ cs, quotedFrom false start r m (escaped c ++ cs) = quotedFrom false start r' m' cs := by
  by_cases hspecial : c = '"' ∨ c = '\\'
  · refine ⟨r.addChar c, skipColumns m 2, rfl, Nat.add_pos_left hcolumn 2, r.total_addChar,
      fun cs => ?_⟩
    rcases hspecial with rfl | rfl <;> exact quotedFrom_escape hcolumn (by decide) (by decide)
  rw [not_or] at hspecial
  cases hwritten : isWritable c && !isBreak c with
  | false =>
    obtain ⟨m', hcolumn', hstep⟩ := quotedFrom_readBack (isReadBack_of_not_written hwritten) hcolumn
    exact ⟨r.addChar c, m', rfl, hcolumn', r.total_addChar, hstep⟩
  | true =>
    have hescaped : escaped c = [c] := by simp [escaped, hspecial, hwritten]
    rw [Bool.and_eq_true, Bool.not_eq_true'] at hwritten
    rw [hescaped]
    by_cases hspace : c = ' '
    · subst hspace
      exact ⟨r.addBlank ' ', m.next, r.hasBreak_addBlank.trans hgap, Nat.succ_pos _,
        r.total_addBlank hgap, fun cs => quotedFrom_blank⟩
    · have hblank : isSpaceOrTab c = false := by
        rw [isSpaceOrTab_of_isWritable hwritten.1]
        simpa using hspace
      exact ⟨r.addChar c, m.next, rfl, Nat.succ_pos _, r.total_addChar, fun cs =>
        quotedFrom_char (Cursor.atDocumentMarker_of_column hcolumn) hwritten.2 hblank
          (fun h => by cases h) (fun _ => hspecial)⟩

theorem quotedFrom_double (start : Mark) (cs tail : List Char) (hgap : r.gap.hasBreak = false)
    (hcolumn : 0 < m.column) :
    ∃ r' m', quotedFrom false start r m (cs.flatMap escaped ++ '"' :: tail) =
      .ok (r', ⟨tail, m'⟩) ∧ r'.text = String.ofList (r.total ++ cs) := by
  induction cs generalizing r m with
  | nil =>
    refine ⟨r.addChars [], m.next, ?_, by rw [Reading.text_addChars_nil, List.append_nil]⟩
    rw [List.flatMap_nil, List.nil_append, quotedFrom.eq_def]
    simp [Cursor.atDocumentMarker_of_column hcolumn, isBreak, isSpaceOrTab]
  | cons c rest ih =>
    obtain ⟨r₁, m₁, hgap₁, hcolumn₁, htotal, hstep⟩ :=
      quotedFrom_escaped start c hgap hcolumn
    obtain ⟨r', m', hrest, htext⟩ := ih hgap₁ hcolumn₁
    refine ⟨r', m', ?_, ?_⟩
    · rw [List.flatMap_cons, List.append_assoc, hstep, hrest]
    · rw [htext, htotal, List.append_assoc, List.singleton_append]

/-- Any text is read back from double quotes. -/
theorem readQuoted_double (cs tail : List Char) :
    ∃ m', readQuoted false ⟨doubleQuoted cs ++ tail, m⟩ = .ok (String.ofList cs, ⟨tail, m'⟩) := by
  obtain ⟨r', m', hread, htext⟩ := quotedFrom_double m cs tail (r := {}) (m := m.next) rfl
    (Nat.succ_pos _)
  refine ⟨m', ?_⟩
  change (quotedFrom false m {} m.next (cs.flatMap escaped ++ ['"'] ++ tail) >>= _) = _
  rw [List.append_assoc, List.singleton_append, hread]
  change Except.ok (_, _) = _
  rw [htext]
  rfl

end Rollout.Yaml
