import Rollout.Proofs.Yaml.Blocks
import Rollout.Proofs.Yaml.Quotes
import Rollout.Proofs.Yaml.Standing

/-!
# Fetching the tokens of a field

A field of a mapping is a key, a colon and a value. The key is read before it is known to be one;
the colon behind it makes it a key and, where the line is deeper than the block it is in, opens a
mapping.
-/

namespace Rollout.Yaml

variable {c : Char} {cs tail : List Char} {m : Mark} {n column : Nat} {r : Reader}
  {ks : List Token.Kind} {indents : List Nat}

/-! ## The form of a text -/

theorem formOf_eq_plain {key : Bool} {s : String} (h : formOf key s = .plain) :
    PlainText s.toList ∧ s.toList ≠ [] := by
  unfold formOf at h
  dsimp only at h
  split at h
  · split at h <;> cases h
  split at h
  · next hallowed =>
    rw [Bool.and_eq_true, Bool.not_eq_true'] at hallowed
    refine ⟨.of_plainAllowed hallowed.2, fun hnil => ?_⟩
    obtain rfl : s = "" := String.toList_eq_nil_iff.1 hnil
    cases hallowed.1
  · split at h <;> cases h

theorem formOf_eq_single {key : Bool} {s : String} (h : formOf key s = .single) :
    Written.singleAllowed s.toList = true ∧ '\n' ∉ s.toList := by
  unfold formOf at h
  dsimp only at h
  split at h
  · split at h <;> cases h
  next hline =>
  split at h
  · cases h
  split at h
  · next hallowed => exact ⟨hallowed, fun hmem => hline (List.contains_iff_mem.2 hmem)⟩
  · cases h

theorem formOf_eq_block {key : Bool} {s : String} (h : formOf key s = .block) :
    s.toList ≠ [] ∧ ∀ c ∈ s.toList, isWritable c = true := by
  unfold formOf at h
  dsimp only at h
  split at h
  · next hline =>
    split at h
    · next hallowed =>
      rw [Bool.and_eq_true, Written.blockAllowed, Bool.and_eq_true, Bool.and_eq_true,
        Written.special, Bool.not_eq_true', List.any_eq_false] at hallowed
      refine ⟨List.ne_nil_of_mem (List.contains_iff_mem.1 hline), fun c hc => ?_⟩
      simpa using hallowed.1.1.1 c hc
    · cases h
  · split at h
    · cases h
    · split at h <;> cases h

def styleOf (s : String) : Style :=
  match formOf false s with
  | .plain => .plain
  | .single | .double => .quoted
  | .block => .block

namespace Reader

/-! ## Which token it is -/

theorem startsPlain_of_plainText (h : PlainText (c :: cs)) :
    startsPlain false (c :: (cs ++ tail)) = true := by
  obtain ⟨hlead, hword⟩ := leadsIndicator_cons_false h.leads
  have hblank : endsWord (c :: (cs ++ tail)) = false := by
    have hspace : c ≠ ' ' := by simpa using h.head
    rw [endsWord, isSpaceOrTab_of_isWritable (h.writable c List.mem_cons_self),
      h.not_break c List.mem_cons_self, Bool.or_false]
    simpa using hspace
  unfold startsPlain
  split
  · next heq => cases heq
  · next heq =>
    cases heq
    have hnext : endsWord (cs ++ tail) = false := endsWord_append (hword (.inr (.inr rfl)))
    cases hrest : cs ++ tail with
    | nil => rfl
    | cons d rest =>
      rw [hrest, endsWord, Bool.or_eq_false_iff] at hnext
      simp [startsWithBlank, hnext.1]
  · next hdash heq =>
    cases heq
    have hdash : c ≠ '-' := hdash
    split
    · next hc =>
      rw [Bool.or_eq_true, beq_iff_eq, beq_iff_eq] at hc
      rw [endsWord_append (hword (hc.imp id .inl))]
      rfl
    · next hc =>
      rw [Bool.or_eq_true, beq_iff_eq, beq_iff_eq, not_or] at hc
      have hindicator : isIndicator c = false := by
        simp only [isIndicator, Bool.eq_false_iff, ne_eq, List.contains_iff_mem]
        simp only [String.reduceToList, List.mem_cons, not_or] at hlead ⊢
        simp [hlead, hc, hdash]
      rw [hblank, hindicator]
      rfl

theorem fetchHere_plain (h : PlainText cs) (hne : cs ≠ []) (hkeys : r.keys.length = 1)
    (hrest : r.cursor.rest = cs ++ tail) (hmarker : r.cursor.atDocumentMarker = false) :
    r.fetchHere = r.fetchPlain := by
  obtain ⟨c, rest, rfl⟩ := List.exists_cons_of_ne_nil hne
  obtain ⟨hlead, hword⟩ := leadsIndicator_cons_false h.leads
  have hnot (p : Char) (hp : c = p → c = '?' ∨ c = ':' ∨ c = '-') :
      (c == p && endsWord (rest ++ tail)) = false := by
    rw [Bool.and_eq_false_imp, beq_iff_eq]
    exact fun hc => endsWord_append (hword (hp hc))
  have hkey := hnot '?' .inl
  have hvalue := hnot ':' fun hc => .inr (.inl hc)
  have hentry := hnot '-' fun hc => .inr (.inr hc)
  simp only [String.reduceToList, List.mem_cons, not_or] at hlead
  unfold fetchHere
  rw [hrest]
  simp [hmarker, inFlow_of_keys hkeys, hlead, hentry, hkey, hvalue, startsPlain_of_plainText h]

theorem atDocumentMarker_of_rest (hrest : r.cursor.rest = c :: tail) (hdash : c ≠ '-')
    (hdot : c ≠ '.') : r.cursor.atDocumentMarker = false := by
  have hmarker := Cursor.atDocumentMarker_of_head r.cursor.mark tail hdash hdot
  rwa [← hrest] at hmarker

theorem fetchHere_quoted {single : Bool}
    (hrest : r.cursor.rest = (if single then '\'' else '"') :: tail) :
    r.fetchHere = r.fetchQuoted single := by
  have hmarker := atDocumentMarker_of_rest hrest (by cases single <;> decide)
    (by cases single <;> decide)
  unfold fetchHere
  rw [hrest]
  cases single <;> simp [hmarker]

theorem fetchHere_block (hkeys : r.keys.length = 1) (hrest : r.cursor.rest = '|' :: tail) :
    r.fetchHere = r.fetchBlockText true := by
  have hmarker := atDocumentMarker_of_rest hrest (by decide) (by decide)
  unfold fetchHere
  rw [hrest]
  simp [hmarker, inFlow_of_keys hkeys]

theorem fetchHere_entry (hrest : r.cursor.rest = '-' :: ' ' :: tail) :
    r.fetchHere = r.fetchBlockEntry := by
  have hmarker : r.cursor.atDocumentMarker = false := by
    unfold Cursor.atDocumentMarker
    rw [hrest]
    simp
  unfold fetchHere
  rw [hrest]
  simp [hmarker, endsWord, isSpaceOrTab]

theorem fetchHere_colon (hrest : r.cursor.rest = ':' :: tail) (htail : endsWord tail = true) :
    r.fetchHere = r.fetchValue := by
  have hmarker := atDocumentMarker_of_rest hrest (by decide) (by decide)
  unfold fetchHere
  rw [hrest]
  simp [hmarker, htail]

/-! ## What it leaves -/

def past (r : Reader) (kind : Token.Kind) (cursor : Cursor) (allowed : Bool) : Reader :=
  { r.push kind r.mark cursor.mark with cursor, keyAllowed := allowed }

theorem ended_of_entries {entries : Array Entry} {t : Token}
    (h : r.entries = entries.push (.token t)) :
    r.ended = (t.kind == .streamEnd) := by
  simp [ended, h]

theorem ended_past {kind : Token.Kind} {cursor : Cursor} {allowed : Bool} :
    (r.past kind cursor allowed).ended = (kind == .streamEnd) := by
  simp [ended, past, push]

@[simp] theorem kinds_past {kind : Token.Kind} {cursor : Cursor} {allowed : Bool} :
    (r.past kind cursor allowed).kinds = r.kinds ++ [kind] := kinds_push

def leastColumn : List Nat → Nat
  | [] => 0
  | i :: _ => i + 1

variable {saved : Reader} {text : String} {cursor : Cursor}

theorem fetchPlain_eq {broken : Bool} (hsave : r.saveKey = .ok saved)
    (hkeys : saved.keys.length = 1) (hread : readPlain false (leastColumn saved.indents)
      saved.cursor = .ok (text, broken, cursor)) :
    r.fetchPlain = .ok (saved.past (.scalar text .plain) cursor broken) := by
  unfold fetchPlain
  rw [hsave]
  change (readPlain saved.inFlow (leastColumn saved.indents) saved.cursor >>= _) = _
  rw [inFlow_of_keys hkeys, hread]
  rfl

theorem fetchQuoted_eq {single : Bool} (hsave : r.saveKey = .ok saved)
    (hread : readQuoted single saved.cursor = .ok (text, cursor)) :
    r.fetchQuoted single = .ok (saved.past (.scalar text .quoted) cursor false) := by
  unfold fetchQuoted
  rw [hsave]
  change (readQuoted single saved.cursor >>= _) = _
  rw [hread]
  rfl

theorem fetchBlockText_eq (hdrop : r.dropKey = .ok saved)
    (hread : readBlock true saved.indents.head? saved.cursor = .ok (text, cursor)) :
    r.fetchBlockText true = .ok (saved.past (.scalar text .block) cursor true) := by
  unfold fetchBlockText
  rw [hdrop]
  change (readBlock true saved.indents.head? saved.cursor >>= _) = _
  rw [hread]
  rfl

/-! ## Values -/

/-- The reader stands behind the colon of a key in a block at column `i`. -/
structure Behind (r : Reader) (ks : List Token.Kind) (i : Nat) (indents : List Nat)
    (rest : List Char) : Prop where
  kinds_eq : r.kinds = ks
  indents_eq : r.indents = i :: indents
  keys_eq : r.keys = [none]
  keyAllowed : r.keyAllowed = false
  rest_eq : r.cursor.rest = rest
  column_lt : i < r.mark.column

theorem dropKey_none (h : r.keys = [none]) : r.dropKey = .ok r := by
  unfold dropKey
  rw [h]

/-- A value on the line of its key is no key itself. -/
theorem saveKey_of_not_allowed (h : r.keyAllowed = false) : r.saveKey = .ok r := by
  unfold saveKey
  rw [h]
  rfl

theorem closeTo_of_le (h : ∀ i ∈ r.indents.head?, i ≤ column) (hkeys : r.keys.length = 1) :
    r.closeTo column = r := by
  rw [closeTo, inFlow_of_keys hkeys, closedAt_of_le h]
  rfl

variable {i : Nat}

def next (r : Reader) (cs : List Char) : Reader := { r with cursor := ⟨cs, r.mark.next⟩ }

/-- One blank behind the colon the value begins. -/
theorem Behind.fetch_eq (h : r.Behind ks i indents (' ' :: cs)) (hcs : startsToken cs = true) :
    r.fetch = (r.next cs).fetchHere := by
  have hskip : r.skipToToken (r.cursor.rest.length + 1) = r.next cs :=
    skipToToken_blanks (n := 1) h.rest_eq hcs
  have hclose : (r.next cs).closeTo (r.next cs).mark.column = r.next cs := by
    refine closeTo_of_le ?_ (by rw [next, h.keys_eq]; rfl)
    rw [next, h.indents_eq]
    intro j hj
    cases hj
    exact Nat.le_succ_of_le (Nat.le_of_lt h.column_lt)
  rw [Reader.fetch_eq, prepare, hskip, dropStale_none (r := r.next cs) h.keys_eq]
  exact congrArg fetchHere hclose

/-- The next token is read and takes something from the text. -/
structure Advances (r r' : Reader) : Prop where
  fetch_eq : r.fetch = .ok r'
  not_ended : r'.ended = false
  shorter : r'.cursor.rest.length < r.cursor.rest.length

variable {style : Style}

theorem Behind.advances (h : r.Behind ks i indents (' ' :: cs)) {allowed : Bool}
    (hcs : startsToken cs = true)
    (hfetch : (r.next cs).fetchHere = .ok ((r.next cs).past (.scalar text style) cursor allowed))
    (hlength : cursor.rest.length ≤ cs.length) :
    r.Advances ((r.next cs).past (.scalar text style) cursor allowed) := by
  refine ⟨(h.fetch_eq hcs).trans hfetch, ended_past, ?_⟩
  rw [h.rest_eq]
  exact Nat.lt_succ_of_le hlength

theorem Behind.before_next (h : r.Behind ks i indents (' ' :: cs)) (hrest : cursor.rest = tail)
    (htail : startsToken tail = true) :
    ((r.next cs).past (.scalar text style) cursor true).Before (ks ++ [.scalar text style])
      (i :: indents) tail cursor.column :=
  before_of_blanks (n := 0) (by rw [kinds_past, ← h.kinds_eq]; rfl) h.indents_eq h.keys_eq rfl hrest
    htail

theorem Behind.before_line (h : r.Behind ks i indents (' ' :: cs))
    (hrest : cursor.rest = '\n' :: (blanks n ++ tail)) (htail : startsToken tail = true) :
    ((r.next cs).past (.scalar text style) cursor false).Before (ks ++ [.scalar text style])
      (i :: indents) tail n :=
  before_of_line (by rw [kinds_past, ← h.kinds_eq]; rfl) h.indents_eq h.keys_eq hrest htail

theorem startsToken_of_plainText (h : PlainText cs) (hne : cs ≠ []) :
    startsToken (cs ++ tail) = true := by
  obtain ⟨c, rest, rfl⟩ := List.exists_cons_of_ne_nil hne
  have hc := h.writable c List.mem_cons_self
  have hspace : c ≠ ' ' := by simpa using h.head
  have hnumber : c ≠ '#' := by
    rintro rfl
    exact (leadsIndicator_cons_false h.leads).1 (by decide)
  simp [startsToken, isSpaceOrTab_of_isWritable hc, hspace, h.not_break c List.mem_cons_self,
    hnumber, ne_of_isWritable hc (p := '\ufeff') (by decide)]

theorem Behind.plain (h : r.Behind ks i indents (' ' :: (cs ++ '\n' :: (blanks n ++ tail))))
    (hcs : PlainText cs) (hne : cs ≠ []) (hn : n ≤ i) (htail : startsToken tail = true) :
    ∃ r', r.Advances r' ∧
      r'.Before (ks ++ [.scalar (String.ofList cs) .plain]) (i :: indents) tail n := by
  obtain ⟨m', hm', hread⟩ : ∃ m' : Mark, m'.column = n ∧
      readPlain false (i + 1) ⟨cs ++ '\n' :: (blanks n ++ tail), r.mark.next⟩ =
        .ok (String.ofList cs, true, ⟨tail, m'⟩) :=
    ⟨_, mark_column, readPlain_value hcs hne (Nat.succ_pos _) (Nat.lt_succ_of_le hn) htail⟩
  have hstarts : startsToken (cs ++ '\n' :: (blanks n ++ tail)) = true :=
    startsToken_of_plainText hcs hne
  have hfetch : (r.next (cs ++ '\n' :: (blanks n ++ tail))).fetchHere =
      .ok ((r.next (cs ++ '\n' :: (blanks n ++ tail))).past (.scalar (String.ofList cs) .plain)
        ⟨tail, m'⟩ true) := by
    rw [fetchHere_plain hcs hne (by rw [next, h.keys_eq]; rfl) rfl
      (Cursor.atDocumentMarker_of_column (Nat.succ_pos _))]
    refine fetchPlain_eq (saveKey_of_not_allowed h.keyAllowed) (by rw [next, h.keys_eq]; rfl) ?_
    rw [next, h.indents_eq]
    exact hread
  refine ⟨_, h.advances hstarts hfetch ?_, ?_⟩
  · simp
    omega
  · rw [← hm']
    exact h.before_next rfl htail

theorem Behind.quoted {single : Bool} {m' : Mark}
    (h : r.Behind ks i indents (' ' :: (cs ++ '\n' :: (blanks n ++ tail))))
    (hread : readQuoted single ⟨cs ++ '\n' :: (blanks n ++ tail), r.mark.next⟩ =
      .ok (text, ⟨'\n' :: (blanks n ++ tail), m'⟩))
    (hcs : cs.head? = some (if single then '\'' else '"')) (htail : startsToken tail = true) :
    ∃ r', r.Advances r' ∧ r'.Before (ks ++ [.scalar text .quoted]) (i :: indents) tail n := by
  obtain ⟨c, rest, rfl⟩ : ∃ c rest, cs = c :: rest := by
    cases cs with
    | nil => cases hcs
    | cons c rest => exact ⟨c, rest, rfl⟩
  cases hcs
  have hstarts (cs : List Char) :
      startsToken ((if single then '\'' else '"') :: cs) = true := by
    cases single <;> rfl
  have hfetch : (r.next _).fetchHere = .ok ((r.next _).past _ _ false) :=
    (fetchHere_quoted rfl).trans (fetchQuoted_eq (saveKey_of_not_allowed h.keyAllowed) hread)
  refine ⟨_, h.advances (hstarts _) hfetch ?_, h.before_line rfl htail⟩
  simp
  omega

theorem Behind.block (h : r.Behind ks i indents (' ' :: (blockHeader cs ++
      '\n' :: (writtenLines (i + 2) cs ++ (blanks n ++ tail)))))
    (hne : cs ≠ []) (hwritable : ∀ c ∈ cs, isWritable c = true) (hn : n ≤ i)
    (htail : startsToken tail = true) :
    ∃ r', r.Advances r' ∧
      r'.Before (ks ++ [.scalar (String.ofList cs) .block]) (i :: indents) tail n := by
  obtain ⟨m', hm', hread⟩ := readBlock_text (m := r.mark.next) i hne hwritable
    (Nat.lt_of_le_of_lt hn (by omega)) htail
  have hindents : (r.next (blockHeader cs ++
      '\n' :: (writtenLines (i + 2) cs ++ (blanks n ++ tail)))).indents.head? = some i := by
    rw [next, h.indents_eq]
    rfl
  have hfetch : (r.next _).fetchHere = .ok ((r.next _).past _ _ true) :=
    (fetchHere_block (by rw [next, h.keys_eq]; rfl) rfl).trans
      (fetchBlockText_eq (dropKey_none h.keys_eq) (hindents ▸ hread))
  refine ⟨_, h.advances rfl hfetch ?_, ?_⟩
  · simp
    omega
  · rw [← hm']
    exact h.before_next rfl htail

variable {s : String}

/-- A text behind its key is read back, whatever form it is written in. -/
theorem Behind.written (h : r.Behind ks i indents
      (' ' :: (Yaml.endLine (textPiece false (i + 2) s) ++ (blanks n ++ tail))))
    (hn : n ≤ i) (htail : startsToken tail = true) :
    ∃ r', r.Advances r' ∧ r'.Before (ks ++ [.scalar s (styleOf s)]) (i :: indents) tail n := by
  have hs : String.ofList s.toList = s := String.ofList_toList
  cases hform : formOf false s with
  | plain =>
    have hstyle : styleOf s = .plain := by rw [styleOf, hform]
    obtain ⟨hplain, hne⟩ := formOf_eq_plain hform
    have hpiece : Yaml.endLine (textPiece false (i + 2) s) = s.toList ++ ['\n'] := by
      simp [Yaml.endLine, textPiece, hform]
    rw [hpiece, List.append_assoc, List.singleton_append] at h
    obtain ⟨r', hadvances, hbefore⟩ := h.plain hplain hne hn htail
    rw [hs] at hbefore
    exact ⟨r', hadvances, hstyle ▸ hbefore⟩
  | single =>
    have hstyle : styleOf s = .quoted := by rw [styleOf, hform]
    obtain ⟨hallowed, hline⟩ := formOf_eq_single hform
    have hpiece : Yaml.endLine (textPiece false (i + 2) s) =
        singleQuoted (i + 2) s.toList ++ ['\n'] := by
      simp [Yaml.endLine, textPiece, hform]
    rw [hpiece, List.append_assoc, List.singleton_append] at h
    obtain ⟨m', hread⟩ := readQuoted_single (m := r.mark.next) (i + 2)
      ('\n' :: (blanks n ++ tail)) hallowed hline (Nat.succ_pos _) (by simp)
    obtain ⟨r', hadvances, hbefore⟩ := h.quoted hread rfl htail
    rw [hs] at hbefore
    exact ⟨r', hadvances, hstyle ▸ hbefore⟩
  | double =>
    have hstyle : styleOf s = .quoted := by rw [styleOf, hform]
    have hpiece : Yaml.endLine (textPiece false (i + 2) s) = doubleQuoted s.toList ++ ['\n'] := by
      simp [Yaml.endLine, textPiece, hform]
    rw [hpiece, List.append_assoc, List.singleton_append] at h
    obtain ⟨m', hread⟩ := readQuoted_double (m := r.mark.next) s.toList ('\n' :: (blanks n ++ tail))
    obtain ⟨r', hadvances, hbefore⟩ := h.quoted hread rfl htail
    rw [hs] at hbefore
    exact ⟨r', hadvances, hstyle ▸ hbefore⟩
  | block =>
    have hstyle : styleOf s = .block := by rw [styleOf, hform]
    obtain ⟨hne, hwritable⟩ := formOf_eq_block hform
    have hpiece : Yaml.endLine (textPiece false (i + 2) s) =
        blockHeader s.toList ++ '\n' :: writtenLines (i + 2) s.toList := by
      unfold Yaml.endLine textPiece writtenLines
      rw [hform]
      dsimp only
      split
      · rw [List.append_nil]
      · rw [List.append_assoc, List.cons_append]
    rw [hpiece, List.append_assoc, List.cons_append] at h
    obtain ⟨r', hadvances, hbefore⟩ := h.block hne hwritable hn htail
    rw [hs] at hbefore
    exact ⟨r', hadvances, hstyle ▸ hbefore⟩

end Reader
end Rollout.Yaml
