import Rollout.Proofs.Yaml.Words
import Rollout.Yaml.Text.Block

/-!
# Block values read back

The lines of a block value are read as the text they were written from, up to the line breaks at
its end. Those are kept, dropped or cut to one as the header says, and the header says what the
text needs.
-/

namespace Rollout.Yaml

variable {c : Char} {cs tail : List Char} {m start : Mark} {b : BlockText} {indent n : Nat}
  {inside : Bool}

/-- The text read so far with all line breaks behind it. -/
def BlockText.total (b : BlockText) : List Char := b.read.reverse ++ b.lastBreak ++ b.emptyBreaks

/-! ## Lines -/

/-- Reading lines: inside a line no line break waits, and between lines the next one begins. -/
structure BlockText.Reads (inside : Bool) (b : BlockText) (m : Mark) : Prop where
  settled : inside = true → b.lastBreak = [] ∧ b.emptyBreaks = []
  column : inside = false → m.column = 0

theorem breakText_of_isWritable (h : isWritable c = true) (hbreak : isBreak c = true) :
    breakText c = [c] := by
  rcases isBreak_of_isWritable h hbreak with rfl | rfl | rfl <;> rfl

theorem blockFrom_break (hwritable : isWritable c = true) (hbreak : isBreak c = true) :
    blockFrom true indent start inside b m (c :: cs) =
      blockFrom true indent start false (if inside then b.endLine c else b.addEmpty c)
        (m.nextLine 1) cs := by
  rw [blockFrom]
  · rw [if_pos hbreak]
  · rintro rest rfl
    exact absurd hwritable (by decide)

theorem blockFrom_inside (hwritable : isWritable c = true) (hbreak : isBreak c = false) :
    blockFrom true indent start true b m (c :: cs) =
      blockFrom true indent start true (b.addChar c) m.next cs := by
  rw [blockFrom]
  · simp [hbreak]
  · rintro rest rfl
    exact absurd hwritable (by decide)

theorem blockFrom_first (hwritable : isWritable c = true) (hbreak : isBreak c = false)
    (hcolumn : m.column = indent) :
    blockFrom true indent start false b m (c :: cs) =
      blockFrom true indent start true ((b.startLine true c).addChar c) m.next cs := by
  rw [blockFrom]
  · simp [hbreak, hcolumn]
  · rintro rest rfl
    exact absurd hwritable (by decide)

theorem blockFrom_blanks (h : m.column + n ≤ indent) :
    blockFrom true indent start false b m (blanks n ++ cs) =
      blockFrom true indent start false b (skipColumns m n) cs := by
  induction n generalizing m with
  | zero => rfl
  | succ n ih =>
    have hless : m.column < indent := by omega
    rw [blanks, List.replicate_succ, List.cons_append, blockFrom]
    · simp only [isBreak, hless]
      rw [← skipColumns_succ]
      exact ih (by simp only [Mark.next]; omega)
    · simp

/-- The last line is behind us where something is indented less. -/
theorem blockFrom_end (hcolumn : m.column = 0) (hless : n < indent)
    (htail : startsToken tail = true) :
    blockFrom true indent start false b m (blanks n ++ tail) =
      .ok (b, ⟨tail, skipColumns m n⟩) := by
  rw [blockFrom_blanks (by omega)]
  cases tail with
  | nil => rfl
  | cons c rest =>
    simp only [startsToken, isSpaceOrTab, Bool.and_eq_true, Bool.not_eq_true',
      Bool.or_eq_false_iff] at htail
    have hless : (skipColumns m n).column < indent := by simpa [skipColumns, hcolumn] using hless
    rw [blockFrom]
    · simp [htail, hless]
    · rintro rest' rfl
      simp [isBreak] at htail

theorem total_break (hwritable : isWritable c = true) (hbreak : isBreak c = true)
    (hb : b.Reads inside m) :
    (if inside then b.endLine c else b.addEmpty c).total = b.total ++ [c] := by
  cases inside with
  | true => simp [BlockText.total, BlockText.endLine, hb.settled rfl,
      breakText_of_isWritable hwritable hbreak]
  | false => simp [BlockText.total, BlockText.addEmpty, breakText_of_isWritable hwritable hbreak]

/-- Is a line being read behind these characters? -/
def staysInside (inside : Bool) (cs : List Char) : Bool := cs.getLast?.elim inside (!isBreak ·)

theorem staysInside_cons : staysInside inside (c :: cs) = staysInside (!isBreak c) cs := by
  unfold staysInside
  rw [List.getLast?_cons]
  cases cs.getLast? <;> rfl

theorem blockFrom_lines (start : Mark) (indent : Nat) (tail : List Char)
    (hwritable : ∀ c ∈ cs, isWritable c = true) (hb : b.Reads inside m) :
    ∃ b' m', blockFrom true indent start inside b m (blockLines indent (!inside) cs ++ tail) =
        blockFrom true indent start (staysInside inside cs) b' m' tail ∧
      b'.total = b.total ++ cs ∧ b'.Reads (staysInside inside cs) m' := by
  induction cs generalizing inside b m with
  | nil => exact ⟨b, m, rfl, (List.append_nil _).symm, hb⟩
  | cons c rest ih =>
    have hc := hwritable c List.mem_cons_self
    have hwritable := fun d hd => hwritable d (List.mem_cons_of_mem c hd)
    rw [staysInside_cons, blockLines]
    cases hbreak : isBreak c with
    | true =>
      have hline : (if inside then b.endLine c else b.addEmpty c).Reads false (m.nextLine 1) :=
        ⟨nofun, fun _ => rfl⟩
      obtain ⟨b', m', hrest, htotal, hb'⟩ := ih hwritable hline
      refine ⟨b', m', ?_, ?_, hb'⟩
      · rw [if_pos rfl, List.cons_append, blockFrom_break hc hbreak]
        exact hrest
      · rw [htotal, total_break hc hbreak hb, List.append_assoc, List.singleton_append]
    | false =>
      rw [if_neg Bool.false_ne_true]
      cases inside with
      | true =>
        have hchar : (b.addChar c).Reads true m.next := ⟨fun _ => hb.settled rfl, nofun⟩
        obtain ⟨b', m', hrest, htotal, hb'⟩ := ih hwritable hchar
        refine ⟨b', m', ?_, ?_, hb'⟩
        · exact (blockFrom_inside hc hbreak).trans hrest
        · rw [htotal]
          simp [BlockText.total, BlockText.addChar, hb.settled rfl]
      | false =>
        have hchar : ((b.startLine true c).addChar c).Reads true (skipColumns m indent).next :=
          ⟨fun _ => ⟨rfl, rfl⟩, nofun⟩
        obtain ⟨b', m', hrest, htotal, hb'⟩ := ih hwritable hchar
        have hcolumn := hb.column rfl
        refine ⟨b', m', ?_, ?_, hb'⟩
        · rw [Bool.not_false, if_pos rfl, List.append_assoc, blockFrom_blanks (by omega)]
          exact (blockFrom_first hc hbreak (by simp [skipColumns, hcolumn])).trans hrest
        · rw [htotal]
          simp [BlockText.total, BlockText.addChar, BlockText.startLine]

/-! ## The end -/

theorem blockLines_concat {afterBreak : Bool} (hbreak : isBreak c = true) :
    blockLines indent afterBreak (cs ++ [c]) = blockLines indent afterBreak cs ++ [c] := by
  induction cs generalizing afterBreak with
  | nil => simp [blockLines, hbreak]
  | cons d rest ih =>
    rw [List.cons_append, blockLines, blockLines]
    split
    · rw [ih, List.cons_append]
    · rw [ih, List.append_assoc, List.cons_append]

/-- What becomes of the line breaks at the end of a text. -/
def chompOf (cs : List Char) : Chomp :=
  if !cs.getLast?.any isBreak then .strip else if keepsBreaks cs then .keep else .clip

theorem keepsBreaks_concat (hbreak : isBreak c = true) :
    keepsBreaks (cs ++ [c]) = cs.getLast?.elim true isBreak := by
  rw [keepsBreaks, List.reverse_append]
  cases h : cs.reverse with
  | nil =>
    obtain rfl := List.reverse_eq_nil_iff.1 h
    exact hbreak
  | cons d rest =>
    rw [← List.head?_reverse, h]
    change (isBreak c && isBreak d) = isBreak d
    rw [hbreak, Bool.true_and]

/-- The lines of a text as they are written, up to the next line. -/
def writtenLines (indent : Nat) (cs : List Char) : List Char :=
  blockLines indent true cs ++ (if cs.getLast?.any isBreak then [] else ['\n'])

theorem mark_column : (skipColumns (m.nextLine 1) n).column = n := by
  simp [skipColumns, Mark.nextLine]

theorem blockFrom_broken (start : Mark) (hwritable : ∀ d ∈ cs ++ [c], isWritable d = true)
    (hbreak : isBreak c = true) (hcolumn : m.column = 0) (hless : n < indent)
    (htail : startsToken tail = true) :
    ∃ b m', blockFrom true indent start false {} m
        (writtenLines indent (cs ++ [c]) ++ (blanks n ++ tail)) = .ok (b, ⟨tail, m'⟩) ∧
      m'.column = n ∧ b.result (chompOf (cs ++ [c])) = String.ofList (cs ++ [c]) := by
  have hc : isWritable c = true := hwritable c (by simp)
  have hstart : BlockText.Reads false {} m := ⟨nofun, fun _ => hcolumn⟩
  obtain ⟨b, m', hlines, htotal, hb⟩ := blockFrom_lines start indent (c :: (blanks n ++ tail))
    (fun d hd => hwritable d (List.mem_append_left [c] hd)) hstart
  obtain ⟨b₁, hb₁⟩ : ∃ b₁, (if staysInside false cs then b.endLine c else b.addEmpty c) = b₁ :=
    ⟨_, rfl⟩
  have htotal₁ : b₁.total = cs ++ [c] := by
    rw [← hb₁, total_break hc hbreak hb, htotal]
    rfl
  refine ⟨b₁, skipColumns (m'.nextLine 1) n, ?_, mark_column, ?_⟩
  · rw [writtenLines, blockLines_concat hbreak, List.getLast?_concat, Option.any_some, 
      if_pos hbreak, List.append_nil, List.append_assoc, List.singleton_append]
    refine hlines.trans ?_
    rw [blockFrom_break hc hbreak, hb₁]
    exact blockFrom_end rfl hless htail
  · rw [chompOf, List.getLast?_concat, Option.any_some, hbreak, Bool.not_true, if_neg (by simp),
      keepsBreaks_concat hbreak, ← htotal₁]
    cases hlast : cs.getLast? with
    | none => simp [BlockText.result, BlockText.total]
    | some d =>
      cases hd : isBreak d with
      | true => simp [BlockText.result, BlockText.total, hd]
      | false =>
        -- The line break ends a line with content, so no other one waits.
        have hinside : staysInside false cs = true := by simp [staysInside, hlast, hd]
        have hempty : b₁.emptyBreaks = [] := by
          rw [← hb₁, if_pos hinside]
          exact (hb.settled hinside).2
        simp [BlockText.result, BlockText.total, hd, hempty]

theorem blockFrom_unbroken (start : Mark) (hwritable : ∀ d ∈ cs ++ [c], isWritable d = true)
    (hbreak : isBreak c = false) (hcolumn : m.column = 0) (hless : n < indent)
    (htail : startsToken tail = true) :
    ∃ b m', blockFrom true indent start false {} m
        (writtenLines indent (cs ++ [c]) ++ (blanks n ++ tail)) = .ok (b, ⟨tail, m'⟩) ∧
      m'.column = n ∧ b.result (chompOf (cs ++ [c])) = String.ofList (cs ++ [c]) := by
  have hinside : staysInside false (cs ++ [c]) = true := by simp [staysInside, hbreak]
  have hstart : BlockText.Reads false {} m := ⟨nofun, fun _ => hcolumn⟩
  obtain ⟨b, m', hlines, htotal, hb⟩ :=
    blockFrom_lines start indent ('\n' :: (blanks n ++ tail)) hwritable hstart
  rw [hinside] at hlines hb
  refine ⟨b.endLine '\n', skipColumns (m'.nextLine 1) n, ?_, mark_column, ?_⟩
  · rw [writtenLines, List.getLast?_concat, Option.any_some, hbreak, if_neg Bool.false_ne_true,
      List.append_assoc, List.singleton_append]
    refine hlines.trans ?_
    rw [blockFrom_break (by decide) (by decide)]
    exact blockFrom_end rfl hless htail
  · have hread : b.read.reverse = cs ++ [c] := by
      simpa [BlockText.total, hb.settled rfl] using htotal
    simp [BlockText.result, BlockText.endLine, chompOf, hbreak, hread]

theorem blockFrom_text (start : Mark) (hne : cs ≠ []) (hwritable : ∀ c ∈ cs, isWritable c = true)
    (hcolumn : m.column = 0) (hless : n < indent) (htail : startsToken tail = true) :
    ∃ b m', blockFrom true indent start false {} m (writtenLines indent cs ++ (blanks n ++ tail)) =
      .ok (b, ⟨tail, m'⟩) ∧ m'.column = n ∧ b.result (chompOf cs) = String.ofList cs := by
  obtain ⟨front, c, rfl⟩ := (List.eq_nil_or_concat cs).resolve_left hne
  rw [List.concat_eq_append] at hwritable ⊢
  cases hbreak : isBreak c with
  | true => exact blockFrom_broken start hwritable hbreak hcolumn hless htail
  | false => exact blockFrom_unbroken start hwritable hbreak hcolumn hless htail

/-! ## Header and lines -/

/-- Does the header have to say how the lines are indented? -/
def needsHint (cs : List Char) : Bool := cs.head?.any fun c => c == ' ' || isBreak c

theorem readHeader_blockHeader (start m : Mark) (cs tail : List Char) :
    ∃ m', readHeader start ⟨(blockHeader cs).tail ++ '\n' :: tail, m⟩ =
      .ok (⟨chompOf cs, if needsHint cs then some 2 else none⟩, ⟨'\n' :: tail, m'⟩) := by
  have hheader : (blockHeader cs).tail = (if needsHint cs then ['2'] else []) ++
      (if !cs.getLast?.any isBreak then ['-'] else if keepsBreaks cs then ['+'] else []) := rfl
  rw [hheader, chompOf]
  cases needsHint cs <;> cases cs.getLast?.any isBreak <;> cases keepsBreaks cs <;>
    exact ⟨_, rfl⟩

theorem deepest_blanks {column most : Nat} (hwritable : isWritable c = true) (hspace : c ≠ ' ')
    (hbreak : isBreak c = false) :
    deepest column most (blanks n ++ c :: cs) = some (max (column + n) most) := by
  induction n generalizing column with
  | zero =>
    rw [blanks, List.replicate_zero, List.nil_append, deepest]
    · simp [hspace, hbreak, ne_of_isWritable hwritable (p := '\t') (by decide)]
    · rintro rest rfl
      cases hbreak
  | succ n ih =>
    rw [blanks, List.replicate_succ, List.cons_append, deepest]
    · rw [if_pos (beq_self_eq_true _), ← blanks, ih]
      congr 2
      omega
    · simp

/-- The indentation is found, by the header or by the first line. -/
theorem blockIndent_text (start m : Mark) (parent : Nat) (tail : List Char) (hne : cs ≠ [])
    (hwritable : ∀ c ∈ cs, isWritable c = true) :
    blockIndent (some parent) ⟨chompOf cs, if needsHint cs then some 2 else none⟩ start
      ⟨writtenLines (parent + 2) cs ++ tail, m⟩ = .ok (parent + 2) := by
  obtain ⟨c, rest, rfl⟩ := List.exists_cons_of_ne_nil hne
  cases hhint : needsHint (c :: rest) with
  | true => rfl
  | false =>
    simp only [needsHint, List.head?_cons, Option.any_some, Bool.or_eq_false_iff,
      beq_eq_false_iff_ne] at hhint
    have hdeepest : deepest 0 0 (writtenLines (parent + 2) (c :: rest) ++ tail) =
        some (parent + 2) := by
      rw [writtenLines, blockLines, if_neg (by simp [hhint.2]), if_pos rfl, List.append_assoc,
        List.append_assoc, List.cons_append, deepest_blanks (hwritable c List.mem_cons_self) hhint.1
        hhint.2]
      simp
    have hmax : max (parent + 2) (parent + 1) = parent + 2 := by omega
    simp only [blockIndent, hdeepest, hmax]
    rfl

/-- A text of several lines is read back; reading stops in front of the next line. -/
theorem readBlock_text (parent : Nat) (hne : cs ≠ []) (hwritable : ∀ c ∈ cs, isWritable c = true)
    (hless : n < parent + 2) (htail : startsToken tail = true) :
    ∃ m', m'.column = n ∧ readBlock true (some parent)
      ⟨blockHeader cs ++ '\n' :: (writtenLines (parent + 2) cs ++ (blanks n ++ tail)), m⟩ =
        .ok (String.ofList cs, ⟨tail, m'⟩) := by
  obtain ⟨m₁, hheader⟩ := readHeader_blockHeader m m.next cs
    (writtenLines (parent + 2) cs ++ (blanks n ++ tail))
  obtain ⟨b, m', hlines, hcolumn, hresult⟩ :=
    blockFrom_text m (m := m₁.nextLine 1) hne hwritable rfl hless htail
  have hindent := blockIndent_text m (m₁.nextLine 1) parent (blanks n ++ tail) hne hwritable
  refine ⟨m', hcolumn, ?_⟩
  change (readHeader m ⟨(blockHeader cs).tail ++ _, m.next⟩ >>= _) = _
  rw [hheader]
  change (blockIndent _ _ m ⟨_, m₁.nextLine 1⟩ >>= _) = _
  rw [hindent]
  change (blockFrom true (parent + 2) m false {} (m₁.nextLine 1)
    (writtenLines (parent + 2) cs ++ (blanks n ++ tail)) >>= _) = _
  rw [hlines]
  change Except.ok (b.result (chompOf cs), _) = _
  rw [hresult]

end Rollout.Yaml
