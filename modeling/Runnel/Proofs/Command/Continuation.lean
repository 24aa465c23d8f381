import Runnel.Proofs.Command.Drafts

/-!
# Runnel.Proofs.Command.Continuation

A backslash before a newline, between two texts. It is dropped without a trace in the middle of a
word, but it begins a word where none has begun, and it ends the name of a variable.

* `joins`: the two texts go on as if there were nothing between them.
* `Scanner.Reached`: where a reader stands behind text without quotes, read off how the text ends.
* `scan_continuation`: the tokens are those of the texts put together exactly if the texts join.
-/

namespace Runnel

/-- Text in which nothing is quoted or commented out. -/
def IsUnquoted (text : List Char) : Prop :=
  ∀ c ∈ text, c ∉ ['\'', '"', '\\', '#']

instance (text : List Char) : Decidable (IsUnquoted text) :=
  List.decidableBAll (fun c => c ∉ ['\'', '"', '\\', '#']) text

/-! ## How a text ends -/

/-- The text, given last character first, ends in a word: with neither a blank nor an operator. -/
def endsInWord : List Char → Bool
  | [] => false
  | c :: _ => !(Text.isBlank c || isOperatorChar c)

/-- The name of a variable with which the text ends, both given last character first. It is empty
behind a dollar sign. -/
def openName : List Char → Option (List Char)
  | [] => none
  | c :: before =>
    if c == '$' then some []
    else
      match openName before with
      | none => none
      | some [] => if Text.isNameStart c then some [c] else none
      | some (d :: chars) => if Text.isNameChar c then some (c :: d :: chars) else none

/-- A line continuation between these texts leaves no trace: it does not stand behind a dollar sign
that has a meaning with the second text, nor inside the name of a variable, and it stands in a word
or right before one. -/
def joins (before after : List Char) : Bool :=
  match openName before.reverse with
  | some [] =>
    !after.head?.any fun c => c == '(' || c == '\x7b' || c == '?' || Text.isNameStart c
  | some (_ :: _) => !after.head?.any Text.isNameChar
  | none =>
    endsInWord before.reverse ||
      after.head?.any fun c => !(Text.isBlank c || isOperatorChar c || c == '#')

theorem openName_eq_none {c : Char} (hc : (Text.isBlank c || isOperatorChar c) = true)
    (before : List Char) : openName (c :: before) = none := by
  have hne : ∀ d, (Text.isBlank d || isOperatorChar d) = false → (c == d) = false := by
    intro d hd
    rw [beq_eq_false_iff_ne]
    rintro rfl
    rw [hc] at hd
    cases hd
  have hchar : Text.isNameChar c = false := by
    rw [Bool.eq_false_iff]
    intro h
    have hsafe := isWordSafe_of_isNameChar h
    rw [not_blank_of_safe hsafe, Scanner.not_operator_of_safe hsafe] at hc
    cases hc
  have hstart : Text.isNameStart c = false := by
    rw [Bool.eq_false_iff]
    intro h
    rw [isNameChar_of_isNameStart h] at hchar
    cases hchar
  simp only [openName, hne '$' (by decide), hchar, hstart, Bool.false_eq_true, if_false]
  split
  all_goals rfl

namespace Scanner

/-! ## Where a reader stands -/

/-- Where a reader stands behind text without quotes that is given last character first. -/
inductive Reached (before : List Char) : ScanMode → Prop where
  | between (h : endsInWord before = false) (hn : openName before = none) : Reached before .between
  | ampersand (h : endsInWord before = false) (hn : openName before = none) :
      Reached before .ampersand
  | bar (h : endsInWord before = false) (hn : openName before = none) : Reached before .bar
  | greater (h : endsInWord before = false) (hn : openName before = none) : Reached before .greater
  | less (h : endsInWord before = false) (hn : openName before = none) : Reached before .less
  | word {d : WordDraft} (h : endsInWord before = true) (hn : openName before = none)
      (hd : d.started = true) : Reached before (.word d)
  | dollar (d : WordDraft) (hn : openName before = some []) : Reached before (.dollar .bare d)
  | name {c : Char} {chars : List Char} (d : WordDraft) (hn : openName before = some (c :: chars)) :
      Reached before (.name .bare (c :: chars) d)

section Reached

variable {before : List Char} {ts : List Token} {s : Scanner} {c : Char} {d : WordDraft}

theorem reached_separated (hc : (Text.isBlank c || isOperatorChar c) = true) (h : Separated ts s) :
    Reached (c :: before) s.mode := by
  have hend : endsInWord (c :: before) = false := by simp [endsInWord, hc]
  have hname := openName_eq_none hc before
  cases h with
  | newline | blank | token => exact .between hend hname
  | ampersand => exact .ampersand hend hname
  | bar => exact .bar hend hname
  | greater => exact .greater hend hname
  | less => exact .less hend hname

variable (hc : c ∉ ['\'', '"', '\\', '#'])

include hc

theorem reached_wordChar (ho : (Text.isBlank c || isOperatorChar c) = false)
    (hname : c ≠ '$' → openName (c :: before) = none) (h : wordChar ts d c = .ok s) :
    Reached (c :: before) s.mode := by
  simp only [List.mem_cons, List.not_mem_nil, or_false, not_or] at hc
  obtain ⟨h1, h2, h3, -⟩ := hc
  simp only [wordChar, beq_eq_false_iff_ne.mpr h1, beq_eq_false_iff_ne.mpr h2,
    beq_eq_false_iff_ne.mpr h3, Bool.false_eq_true, if_false] at h
  split at h
  · rename_i hdollar
    cases h
    exact .dollar d (by simp [openName, hdollar])
  split at h
  · cases h
  · rename_i hdollar _
    cases h
    exact .word (by simp [endsInWord, ho]) (hname (by simpa using hdollar)) rfl

theorem reached_betweenChar (hname : c ≠ '$' → openName (c :: before) = none)
    (h : betweenChar ts c = .ok s) : Reached (c :: before) s.mode := by
  cases ho : Text.isBlank c || isOperatorChar c with
  | true => exact reached_separated ho (betweenChar_separator ho h)
  | false =>
    have hhash : (c == '#') = false := beq_eq_false_iff_ne.mpr fun heq => hc (by simp [heq])
    have hb := Bool.or_eq_false_iff.mp ho
    rw [betweenChar_ordinary hb.1 hhash hb.2] at h
    exact reached_wordChar hc ho hname h

theorem reached_bareChar (hname : c ≠ '$' → openName (c :: before) = none)
    (h : bareChar ts d c = .ok s) : Reached (c :: before) s.mode := by
  unfold bareChar at h
  split at h
  · exact reached_betweenChar hc hname h
  split at h
  · split at h
    · cases h
    · exact reached_betweenChar hc hname h
  · rename_i hb ho
    exact reached_wordChar hc (by simp [hb, ho]) hname h

theorem step_reached {m : ScanMode} (hm : Reached before m) (h : step ⟨ts, m⟩ c = .ok s) :
    Reached (c :: before) s.mode := by
  have hplain : openName before = none → c ≠ '$' → openName (c :: before) = none := by
    intro hn hd
    simp [openName, hn, hd]
  have hemit : ∀ d, (c == d) = true → isOperatorChar d = true → Reached (c :: before) .between := by
    intro d hd hop
    obtain rfl := beq_iff_eq.mp hd
    exact .between (by simp [endsInWord, hop]) (openName_eq_none (by simp [hop]) before)
  cases hm with
  | between _ hn => exact reached_betweenChar hc (hplain hn) h
  | ampersand =>
    simp only [step] at h
    split at h
    · rename_i ho
      cases h
      exact hemit '&' ho (by decide)
    · cases h
  | bar _ hn =>
    simp only [step] at h
    split at h
    · rename_i ho
      cases h
      exact hemit '|' ho (by decide)
    · exact reached_betweenChar hc (hplain hn) h
  | greater _ hn =>
    simp only [step] at h
    split at h
    · rename_i ho
      cases h
      exact hemit '>' ho (by decide)
    split at h
    · cases h
    · exact reached_betweenChar hc (hplain hn) h
  | less _ hn =>
    simp only [step] at h
    split at h
    · cases h
    split at h
    · cases h
    · exact reached_betweenChar hc (hplain hn) h
  | word _ hn => exact reached_bareChar hc (hplain hn) h
  | dollar d hn =>
    simp only [step] at h
    split at h
    · cases h
    split at h
    · cases h
    split at h
    · rename_i ho
      obtain rfl := beq_iff_eq.mp ho
      cases h
      exact .word rfl (by simp [openName, hn]; rfl) rfl
    split at h
    · rename_i hstart
      have hdollar : c ≠ '$' := by
        rintro rfl
        exact absurd hstart (by decide)
      cases h
      exact .name d (by simp [openName, hn, hstart, hdollar])
    · rename_i hstart
      exact reached_bareChar hc (fun hd => by simp [openName, hn, hstart, hd]) h
  | name d hn =>
    simp only [step] at h
    split at h
    · rename_i hchar
      have hdollar : c ≠ '$' := by
        rintro rfl
        exact absurd hchar (by decide)
      cases h
      exact .name d (by simp [openName, hn, hchar, hdollar])
    · rename_i hchar
      exact reached_bareChar hc (fun hd => by simp [openName, hn, hchar, hd]) h

end Reached

theorem run_reached {p : List Char} {ts : List Token} {m : ScanMode} {s : Scanner}
    (hp : IsUnquoted p) (before : List Char) (hm : Reached before m)
    (h : run ⟨ts, m⟩ p = .ok s) : Reached (p.reverse ++ before) s.mode := by
  induction p generalizing before ts m with
  | nil =>
    cases h
    exact hm
  | cons c p ih =>
    rw [IsUnquoted, List.forall_mem_cons] at hp
    simp only [run] at h
    cases hc : step ⟨ts, m⟩ c with
    | error e => rw [hc] at h; cases h
    | ok s' =>
      rw [hc] at h
      have hreach := ih hp.2 _ (step_reached hp.1 hm hc) h
      rwa [List.reverse_cons, List.append_assoc]

/-! ## Text behind a dollar sign -/

theorem readAll_dollar {ts : List Token} {d : WordDraft} {q : List Char}
    (h : q.head?.any (fun c => c == '(' || c == '\x7b' || c == '?' || Text.isNameStart c) = false) :
    readAll ⟨ts, .dollar .bare d⟩ q = readAll ⟨ts, .word (d.push '$')⟩ q := by
  cases q with
  | nil => rfl
  | cons c q =>
    simp only [List.head?_cons, Option.any_some, Bool.or_eq_false_iff] at h
    obtain ⟨⟨⟨h1, h2⟩, h3⟩, h4⟩ := h
    simp only [readAll, run, step, h1, h2, h3, h4]
    rfl

/-- A name goes on as long as it can. -/
theorem readAll_name (ts : List Token) (d : WordDraft) (chars q : List Char) :
    readAll ⟨ts, .name .bare chars d⟩ q
      = readAll ⟨ts, .word (d.pushVariable
            (String.ofList (chars.reverse ++ q.takeWhile Text.isNameChar)))⟩
          (q.dropWhile Text.isNameChar) := by
  induction q generalizing chars with
  | nil =>
    rw [List.takeWhile_nil, List.append_nil]
    rfl
  | cons c q ih =>
    by_cases hc : Text.isNameChar c = true
    · have hstep : step ⟨ts, .name .bare chars d⟩ c = .ok ⟨ts, .name .bare (c :: chars) d⟩ := by
        simp [step, hc]
      rw [readAll_cons hstep, ih, List.takeWhile_cons_of_pos hc, List.dropWhile_cons_of_pos hc]
      simp
    · rw [List.takeWhile_cons_of_neg hc, List.dropWhile_cons_of_neg hc, List.append_nil]
      simp only [readAll, run, step, hc]
      rfl

/-- A reference or an error comes of a dollar sign that has a meaning with the text. -/
theorem readAll_reference {ts read : List Token} {d : WordDraft} {q : List Char}
    (hq : q.head?.any (fun c => c == '(' || c == '\x7b' || c == '?' || Text.isNameStart c) = true)
    (h : readAll ⟨ts, .dollar .bare d⟩ q = .ok read) :
    ∃ name rest, readAll ⟨ts, .word (d.pushVariable name)⟩ rest = .ok read := by
  cases q with
  | nil => cases hq
  | cons c q =>
    simp only [List.head?_cons, Option.any_some] at hq
    cases hs : step ⟨ts, .dollar .bare d⟩ c with
    | error e => simp only [readAll, run, hs] at h; cases h
    | ok s =>
      rw [readAll_cons hs] at h
      simp only [step] at hs
      split at hs
      · cases hs
      split at hs
      · cases hs
      split at hs
      · cases hs
        exact ⟨"?", q, h⟩
      split at hs
      · cases hs
        rw [readAll_name] at h
        exact ⟨_, _, h⟩
      · rename_i h1 h2 h3 h4
        simp [h1, h2, h3, h4] at hq

/-! ## Words that have begun -/

/-- Whether a word has begun makes no difference before something of it. -/
theorem readAll_touch_name (ts : List Token) (d : WordDraft) (chars q : List Char) :
    readAll ⟨ts, .name .bare chars d.touch⟩ q = readAll ⟨ts, .name .bare chars d⟩ q := by
  rw [readAll_name, readAll_name]
  rfl

theorem readAll_touch_dollar (ts : List Token) (d : WordDraft) (q : List Char) :
    readAll ⟨ts, .dollar .bare d.touch⟩ q = readAll ⟨ts, .dollar .bare d⟩ q := by
  cases q with
  | nil => rfl
  | cons c q =>
    by_cases hc : Text.isNameStart c = true
    · have hne : ∀ e, Text.isNameStart e = false → (c == e) = false := by
        intro e he
        rw [beq_eq_false_iff_ne]
        rintro rfl
        rw [hc] at he
        cases he
      have hstep : ∀ d, step ⟨ts, .dollar .bare d⟩ c = .ok ⟨ts, .name .bare [c] d⟩ := by
        intro d
        simp [step, hc, hne '(' (by decide), hne '\x7b' (by decide), hne '?' (by decide)]
      rw [readAll_cons (hstep _), readAll_cons (hstep _), readAll_touch_name]
    · simp only [readAll, run, step, hc]
      rfl

theorem readAll_touch_escape (ts : List Token) (d : WordDraft) (q : List Char) :
    readAll ⟨ts, .wordEscape d.touch⟩ q = readAll ⟨ts, .wordEscape d⟩ q := by
  cases q with
  | nil => rfl
  | cons c q => rfl

/-- The rest of a text behind a character of a word. -/
def readWord (ts : List Token) (d : WordDraft) (c : Char) (q : List Char) :
    Except SyntaxError (List Token) :=
  match wordChar ts d c with
  | .error e => .error e
  | .ok s => s.readAll q

theorem readWord_touch (ts : List Token) (d : WordDraft) (c : Char) (q : List Char) :
    readWord ts d.touch c q = readWord ts d c q := by
  unfold readWord wordChar
  by_cases h1 : (c == '\\') = true
  · simp only [h1, if_true]
    exact readAll_touch_escape ts d q
  by_cases h2 : (c == '\'') = true
  · simp only [h1, h2]
    rfl
  by_cases h3 : (c == '"') = true
  · simp only [h1, h2, h3]
    rfl
  by_cases h4 : (c == '$') = true
  · simp only [h1, h2, h3, h4, if_true, Bool.false_eq_true, if_false]
    exact readAll_touch_dollar ts d q
  · simp only [h1, h2, h3, h4]
    rfl

/-! ## The number of words -/

/-- How many of the tokens are words. -/
def wordCount (tokens : List Token) : Nat :=
  tokens.countP fun
    | .word _ => true
    | _ => false

@[simp] theorem wordCount_word (w : Word) (ts : List Token) :
    wordCount (.word w :: ts) = wordCount ts + 1 := by
  simp [wordCount]

theorem wordCount_append (ts us : List Token) :
    wordCount (ts ++ us) = wordCount ts + wordCount us :=
  List.countP_append

theorem wordCount_newline (ts : List Token) : wordCount (newline ts) = wordCount ts := by
  rw [newline_eq, wordCount_append]
  split <;> simp [wordCount]

/-- If reading on behind some tokens succeeds, so does reading on behind others that hold `n` words
more, and there are `n` words more afterwards. -/
def Ahead (n : Nat) (r r' : Except SyntaxError Scanner) : Prop :=
  ∀ s, r = .ok s → ∃ us, r' = .ok ⟨us, s.mode⟩ ∧ wordCount us = wordCount s.tokens + n

namespace Ahead

variable {n : Nat} {ts us : List Token} {m : ScanMode}

theorem ok (h : wordCount us = wordCount ts + n) : Ahead n (.ok ⟨ts, m⟩) (.ok ⟨us, m⟩) := by
  rintro s ⟨⟩
  exact ⟨us, rfl, h⟩

theorem error {e : SyntaxError} {r : Except SyntaxError Scanner} : Ahead n (.error e) r := by
  rintro s ⟨⟩

theorem ite {p : Prop} [Decidable p] {a b a' b' : Except SyntaxError Scanner} (ha : Ahead n a a')
    (hb : Ahead n b b') : Ahead n (if p then a else b) (if p then a' else b') := by
  split
  · exact ha
  · exact hb

theorem push (h : wordCount us = wordCount ts + n) (t : Token) :
    wordCount (t :: us) = wordCount (t :: ts) + n := by
  have hts := wordCount_append [t] ts
  have hus := wordCount_append [t] us
  simp only [List.singleton_append] at hts hus
  omega

variable (h : wordCount us = wordCount ts + n)

include h

theorem emitWord (d : WordDraft) :
    wordCount (emitWord us d) = wordCount (emitWord ts d) + n := by
  rw [emitWord_eq us, emitWord_eq ts, wordCount_append, wordCount_append, h, Nat.add_assoc]

theorem wordChar (d : WordDraft) (c : Char) : Ahead n (wordChar ts d c) (wordChar us d c) :=
  .ite (.ok h) (.ite (.ok h) (.ite (.ok h) (.ite (.ok h) (.ite .error (.ok h)))))

theorem betweenChar (c : Char) : Ahead n (betweenChar ts c) (betweenChar us c) :=
  .ite (.ok (by rw [wordCount_newline, wordCount_newline, h])) <| .ite (.ok h) <| .ite (.ok h) <|
    .ite (.ok h) <| .ite (.ok h) <| .ite (.ok (push h _)) <| .ite (.ok (push h _)) <|
    .ite (.ok (push h _)) <| .ite (.ok h) <| .ite (.ok h) (.wordChar h .empty c)

theorem surroundedChar (around : Surroundings) (d : WordDraft) (c : Char) :
    Ahead n (surroundedChar ts around d c) (surroundedChar us around d c) := by
  cases around with
  | bare =>
    have hemitted := betweenChar (emitWord h d) c
    exact .ite hemitted (.ite (.ite .error hemitted) (.wordChar h d c))
  | doubleQuoted => exact .ite (.ok h) (.ite (.ok h) (.ite (.ok h) (.ite .error (.ok h))))

theorem step (m : ScanMode) (c : Char) : Ahead n (step ⟨ts, m⟩ c) (step ⟨us, m⟩ c) := by
  have hpush : ∀ t, Ahead n (Scanner.betweenChar (t :: ts) c) (Scanner.betweenChar (t :: us) c) :=
    fun t => .betweenChar (push h t) c
  cases m with
  | between => exact .betweenChar h c
  | comment => exact .ite (.betweenChar h c) (.ok h)
  | ampersand => exact .ite (.ok (push h _)) .error
  | bar => exact .ite (.ok (push h _)) (hpush .pipe)
  | greater => exact .ite (.ok (push h _)) (.ite .error (hpush .redirectOut))
  | less => exact .ite .error (.ite .error (hpush .redirectIn))
  | word d => exact .surroundedChar h .bare d c
  | wordEscape d => exact .ite (.ok h) (.ok h)
  | single d => exact .ite (.ok h) (.ok h)
  | double d => exact .surroundedChar h .doubleQuoted d c
  | doubleEscape d => exact .ite (.ok h) (.ite (.ok h) (.ok h))
  | dollar around d =>
    refine .ite .error (.ite .error (.ite ?_ (.ite (.ok h) (.surroundedChar h around _ c))))
    cases around <;> exact .ok h
  | name around chars d => exact .ite (.ok h) (.surroundedChar h around _ c)

theorem finish {read : List Token} (hread : finish ⟨ts, m⟩ = .ok read) :
    ∃ read', Scanner.finish ⟨us, m⟩ = .ok read' ∧ wordCount read' = wordCount read + n := by
  cases m with
  | between | comment => cases hread; exact ⟨_, rfl, h⟩
  | bar | greater | less => cases hread; exact ⟨_, rfl, push h _⟩
  | word d | wordEscape d => cases hread; exact ⟨_, rfl, emitWord h _⟩
  | ampersand | single d | double d | doubleEscape d => cases hread
  | dollar around d | name around chars d =>
    cases around with
    | bare => cases hread; exact ⟨_, rfl, emitWord h _⟩
    | doubleQuoted => cases hread

/-- Reading on adds the same number of words behind any tokens. -/
theorem readAll {q : List Char} {read : List Token} (hread : readAll ⟨ts, m⟩ q = .ok read) :
    ∃ read', Scanner.readAll ⟨us, m⟩ q = .ok read' ∧ wordCount read' = wordCount read + n := by
  induction q generalizing ts us m with
  | nil => exact finish h hread
  | cons c q ih =>
    cases hc : Scanner.step ⟨ts, m⟩ c with
    | error e => simp only [Scanner.readAll, run, hc] at hread; cases hread
    | ok s =>
      obtain ⟨us', hus, hcount⟩ := step h m c s hc
      rw [readAll_cons hc] at hread
      rw [readAll_cons hus]
      exact ih hcount hread

end Ahead

/-! ## Between two tokens -/

/-- Between two tokens, or behind an operator that may be complete. -/
inductive Outside : ScanMode → Prop where
  | between : Outside .between
  | bar : Outside .bar
  | greater : Outside .greater
  | less : Outside .less

/-- The operator, if it is complete. -/
def pending : ScanMode → List Token
  | .bar => [.pipe]
  | .greater => [.redirectOut]
  | .less => [.redirectIn]
  | _ => []

theorem bareChar_separator {ts : List Token} {d : WordDraft} {c : Char}
    (hc : (Text.isBlank c || isOperatorChar c) = true) (hd : d.isPlainDigits = false) :
    bareChar ts d c = betweenChar (emitWord ts d) c := by
  unfold bareChar
  split
  · rfl
  · rename_i hb
    have ho : isOperatorChar c = true := by simpa [hb] using hc
    simp [ho, hd]

section Outside

variable {m : ScanMode} (hm : Outside m) {ts read : List Token} {c : Char}

include hm

theorem finish_outside : finish ⟨ts, m⟩ = .ok (pending m ++ ts) := by
  cases hm with
  | between | bar | greater | less => rfl

/-- The first character of a word completes the operator. -/
theorem step_ordinary (hc : (Text.isBlank c || isOperatorChar c || c == '#') = false) :
    step ⟨ts, m⟩ c = wordChar (pending m ++ ts) .empty c := by
  simp only [Bool.or_eq_false_iff] at hc
  obtain ⟨⟨hb, ho⟩, hhash⟩ := hc
  have hbetween := fun ts => betweenChar_ordinary hb hhash ho ts
  simp only [isOperatorChar, Bool.or_eq_false_iff] at ho
  obtain ⟨⟨⟨⟨⟨⟨h1, h2⟩, -⟩, -⟩, -⟩, h3⟩, h4⟩ := ho
  cases hm with
  | between => exact hbetween ts
  | bar =>
    show step ⟨ts, .bar⟩ c = wordChar (.pipe :: ts) .empty c
    simp [step, h2, ← hbetween]
  | greater =>
    show step ⟨ts, .greater⟩ c = wordChar (.redirectOut :: ts) .empty c
    simp [step, h1, h2, h4, ← hbetween]
  | less =>
    show step ⟨ts, .less⟩ c = wordChar (.redirectIn :: ts) .empty c
    simp [step, h1, h3, h4, ← hbetween]

/-- Any other character completes it or makes another operator of it. -/
theorem step_outside {s : Scanner} (h : step ⟨ts, m⟩ c = .ok s) :
    betweenChar (pending m ++ ts) c = .ok s ∨
      ∃ t u, s = emit ts t ∧ pending m = [u] ∧ t ≠ u := by
  cases hm with
  | between => exact .inl h
  | bar =>
    simp only [step] at h
    split at h
    · cases h
      exact .inr ⟨.or, .pipe, rfl, rfl, by rintro ⟨⟩⟩
    · exact .inl h
  | greater =>
    simp only [step] at h
    split at h
    · cases h
      exact .inr ⟨.redirectAppend, .redirectOut, rfl, rfl, by rintro ⟨⟩⟩
    split at h
    · cases h
    · exact .inl h
  | less =>
    simp only [step] at h
    split at h
    · cases h
    split at h
    · cases h
    · exact .inl h

theorem readAll_ordinary (hc : (Text.isBlank c || isOperatorChar c || c == '#') = false)
    (q : List Char) : readAll ⟨ts, m⟩ (c :: q) = readWord (pending m ++ ts) .empty c q := by
  simp only [readAll, run, step_ordinary hm hc, readWord]
  cases wordChar (pending m ++ ts) .empty c <;> rfl

/-- A line continuation begins a word. -/
theorem readAll_continuation (q : List Char) :
    readAll ⟨ts, m⟩ ('\\' :: '\n' :: q) = readAll ⟨pending m ++ ts, .word (.touch .empty)⟩ q := by
  have hback : step ⟨ts, m⟩ '\\' = .ok ⟨pending m ++ ts, .wordEscape .empty⟩ := by
    rw [step_ordinary hm (by decide)]
    rfl
  rw [readAll_cons hback]
  rfl

/-- It makes no difference before a word. -/
theorem readAll_before_word (hc : (Text.isBlank c || isOperatorChar c || c == '#') = false)
    (q : List Char) :
    readAll ⟨ts, m⟩ ('\\' :: '\n' :: c :: q) = readAll ⟨ts, m⟩ (c :: q) := by
  rw [readAll_continuation hm, readAll_ordinary hm hc, ← readWord_touch]
  simp only [Bool.or_eq_false_iff] at hc
  simp only [readAll, run, step, bareChar, hc.1.1, hc.1.2, readWord]
  cases wordChar (pending m ++ ts) (.touch .empty) c <;> rfl

/-- Elsewhere it makes a word of its own. -/
theorem readAll_before_other {q : List Char}
    (hq : ∀ c ∈ q.head?, (Text.isBlank c || isOperatorChar c) = true)
    (h : readAll ⟨ts, m⟩ q = .ok read) : readAll ⟨ts, m⟩ ('\\' :: '\n' :: q) ≠ .ok read := by
  rw [readAll_continuation hm]
  have hempty : emitWord (pending m ++ ts) (.touch .empty)
      = .word ⟨[.literal ""], false⟩ :: (pending m ++ ts) := rfl
  have hcount : wordCount (emitWord (pending m ++ ts) (.touch .empty))
      = wordCount (pending m ++ ts) + 1 := wordCount_word _ _
  intro h'
  cases q with
  | nil =>
    have hread : pending m ++ ts = read := Except.ok.inj ((finish_outside hm).symm.trans h)
    have hread' : emitWord (pending m ++ ts) (.touch .empty) = read := Except.ok.inj h'
    rw [hread', hread] at hcount
    omega
  | cons c q =>
    replace h' : readAll ⟨emitWord (pending m ++ ts) (.touch .empty), .between⟩ (c :: q)
        = .ok read := by
      rw [← h']
      simp only [readAll, run, step, bareChar_separator (hq c rfl) (d := .touch .empty) rfl]
    cases hs : step ⟨ts, m⟩ c with
    | error e => simp only [readAll, run, hs] at h; cases h
    | ok s =>
      rcases step_outside hm hs with hbetween | ⟨t, u, rfl, hu, htu⟩
      · -- the operator is complete: there is one word more
        have hread : readAll ⟨pending m ++ ts, .between⟩ (c :: q) = .ok read := by
          have hstep : step ⟨pending m ++ ts, .between⟩ c = .ok s := hbetween
          rw [readAll_cons hstep]
          rwa [readAll_cons hs] at h
        obtain ⟨read', hread', hcount'⟩ := Ahead.readAll hcount hread
        obtain rfl : read = read' := Except.ok.inj (h'.symm.trans hread')
        omega
      · -- another operator comes of it: the tokens differ right there
        rw [readAll_cons hs] at h
        obtain ⟨new, rfl, -⟩ := readAll_frame rfl h
        obtain ⟨new', heq, -⟩ := readAll_frame rfl h'
        rw [hempty, hu] at heq
        have hsplit : new ++ [t] ++ ts = (new' ++ [.word ⟨[.literal ""], false⟩]) ++ [u] ++ ts := by
          simpa using heq
        have hlast := List.append_inj_right' (List.append_cancel_right hsplit) rfl
        exact htu (List.cons.inj hlast).1

end Outside

/-! ## In a word -/

theorem touch_of_started {d : WordDraft} (h : d.started = true) : d.touch = d := by
  obtain ⟨parts, current, quoted, started⟩ := d
  obtain rfl : started = true := h
  rfl

theorem readAll_in_word {ts : List Token} {d : WordDraft} (h : d.started = true) (q : List Char) :
    readAll ⟨ts, .word d⟩ ('\\' :: '\n' :: q) = readAll ⟨ts, .word d⟩ q := by
  show readAll ⟨ts, .word d.touch⟩ q = _
  rw [touch_of_started h]

theorem readAll_behind_dollar (ts : List Token) (d : WordDraft) (q : List Char) :
    readAll ⟨ts, .dollar .bare d⟩ ('\\' :: '\n' :: q) = readAll ⟨ts, .word (d.push '$')⟩ q := by
  rw [readAll_dollar rfl]
  exact readAll_in_word rfl q

theorem readAll_behind_name (ts : List Token) (d : WordDraft) (chars q : List Char) :
    readAll ⟨ts, .name .bare chars d⟩ ('\\' :: '\n' :: q)
      = readAll ⟨ts, .word (d.pushVariable (String.ofList chars.reverse))⟩ q := by
  rw [readAll_name, List.takeWhile_cons_of_neg (by decide), List.dropWhile_cons_of_neg (by decide),
    List.append_nil]
  exact readAll_in_word rfl q

/-- Two texts that are read as the same tokens go on with the same word. -/
theorem readAll_same_word {ts read : List Token} {d d' : WordDraft} {q q' : List Char}
    (hd : d.started = true) (hd' : d'.started = true)
    (h : readAll ⟨ts, .word d⟩ q = .ok read) (h' : readAll ⟨ts, .word d'⟩ q' = .ok read) :
    ∃ w : Word, Part.Extends d.segments w.parts ∧ Part.Extends d'.segments w.parts := by
  obtain ⟨w, new, rfl, hw, -⟩ := readAll_holds (.word hd) h
  obtain ⟨w', new', heq, hw', -⟩ := readAll_holds (.word hd') h'
  have hsplit : new ++ [.word w] ++ ts = new' ++ [.word w'] ++ ts := by simpa using heq
  have hlast := List.append_inj_right' (List.append_cancel_right hsplit) rfl
  obtain rfl : w = w' := Token.word.inj (List.cons.inj hlast).1
  exact ⟨w, hw, hw'⟩

/-- A dollar sign that stands for itself is no reference. -/
theorem dollar_ne_reference {ts read : List Token} {d : WordDraft} {name : String}
    {q q' : List Char} (h : readAll ⟨ts, .word (d.pushVariable name)⟩ q = .ok read) :
    readAll ⟨ts, .word (d.push '$')⟩ q' ≠ .ok read := by
  intro h'
  obtain ⟨w, hw, hw'⟩ := readAll_same_word rfl rfl h h'
  rw [WordDraft.segments_pushVariable] at hw
  rw [WordDraft.segments_push] at hw'
  obtain ⟨more, hparts⟩ := hw.of_variable
  obtain ⟨u, more', hparts', hu⟩ := hw'.of_literal
  rw [hparts] at hparts'
  by_cases hd : d.current = []
  · rw [WordDraft.segments_of_no_current hd] at hparts'
    have hhead := (List.cons.inj (List.append_cancel_left hparts')).1
    cases hhead
  · rw [WordDraft.segments_of_current hd, List.append_assoc] at hparts'
    obtain ⟨hhead, -⟩ := List.cons.inj (List.append_cancel_left hparts')
    obtain rfl := Part.literal.inj hhead
    have hlength := hu.length_le
    simp only [String.toList_ofList, List.length_append, List.length_reverse,
      List.length_singleton] at hlength
    omega

/-- A name is not the beginning of it. -/
theorem name_ne_prefix {ts read : List Token} {d : WordDraft} {name name' : String}
    {q q' : List Char} (hname : name ≠ name')
    (h : readAll ⟨ts, .word (d.pushVariable name)⟩ q = .ok read) :
    readAll ⟨ts, .word (d.pushVariable name')⟩ q' ≠ .ok read := by
  intro h'
  obtain ⟨w, hw, hw'⟩ := readAll_same_word rfl rfl h h'
  rw [WordDraft.segments_pushVariable] at hw hw'
  obtain ⟨more, hparts⟩ := hw.of_variable
  obtain ⟨more', hparts'⟩ := hw'.of_variable
  rw [hparts] at hparts'
  exact hname (Part.variable.inj (List.cons.inj (List.append_cancel_left hparts')).1)

/-! ## Anywhere -/

theorem scan_eq_readAll (text : List Char) :
    scan text = (start.readAll text).map fun read => read.reverse ++ [.eof] := by
  simp only [scan, readAll]
  cases start.run text with
  | error e => rfl
  | ok s =>
    cases h : s.finish with
    | error e => simp [h, Except.map]
    | ok read => simp [h, Except.map]

/-- Behind text that ends as it does, a line continuation leaves no trace if the texts join. -/
theorem readAll_joined {p q : List Char} {ts : List Token} {m : ScanMode}
    (hm : Reached p.reverse m) (h : joins p q = true) :
    readAll ⟨ts, m⟩ ('\\' :: '\n' :: q) = readAll ⟨ts, m⟩ q := by
  have hbefore : endsInWord p.reverse = false → openName p.reverse = none → Outside m →
      readAll ⟨ts, m⟩ ('\\' :: '\n' :: q) = readAll ⟨ts, m⟩ q := by
    intro hend hname hout
    simp only [joins, hname, hend, Bool.false_or] at h
    cases q with
    | nil => cases h
    | cons c q => exact readAll_before_word hout (by simpa using h) q
  cases hm with
  | between hend hname => exact hbefore hend hname .between
  | bar hend hname => exact hbefore hend hname .bar
  | greater hend hname => exact hbefore hend hname .greater
  | less hend hname => exact hbefore hend hname .less
  | ampersand hend hname =>
    -- a single ampersand is an error whatever follows
    simp only [joins, hname, hend, Bool.false_or] at h
    cases q with
    | nil => cases h
    | cons c q =>
      have hc : (c == '&') = false := by
        rw [beq_eq_false_iff_ne]
        rintro rfl
        cases h
      simp only [readAll, run, step, hc]
      rfl
  | word _ _ hd => exact readAll_in_word hd q
  | dollar d hname =>
    simp only [joins, hname, Bool.not_eq_true'] at h
    rw [readAll_behind_dollar, readAll_dollar h]
  | @name c chars d hname =>
    simp only [joins, hname, Bool.not_eq_true'] at h
    rw [readAll_behind_name, readAll_name]
    cases q with
    | nil => rw [List.takeWhile_nil, List.dropWhile_nil, List.append_nil]
    | cons e q =>
      have he : ¬ Text.isNameChar e = true := by simpa using h
      rw [List.takeWhile_cons_of_neg he, List.dropWhile_cons_of_neg he, List.append_nil]

/-- It changes the tokens if they do not. -/
theorem readAll_not_joined {p q : List Char} {ts read : List Token} {m : ScanMode}
    (hm : Reached p.reverse m) (hj : joins p q = false) (hq : q.head? ≠ some '#')
    (h : readAll ⟨ts, m⟩ q = .ok read) : readAll ⟨ts, m⟩ ('\\' :: '\n' :: q) ≠ .ok read := by
  have hbefore : endsInWord p.reverse = false → openName p.reverse = none → Outside m →
      readAll ⟨ts, m⟩ ('\\' :: '\n' :: q) ≠ .ok read := by
    intro hend hname hout
    refine readAll_before_other hout (fun c hc => ?_) h
    simp only [joins, hname, hend, Bool.false_or] at hj
    have hhash : c ≠ '#' := by
      rintro rfl
      exact hq hc
    rw [Option.mem_def.mp hc, Option.any_some, Bool.not_eq_false', beq_eq_false_iff_ne.mpr hhash,
      Bool.or_false] at hj
    exact hj
  cases hm with
  | between hend hname => exact hbefore hend hname .between
  | bar hend hname => exact hbefore hend hname .bar
  | greater hend hname => exact hbefore hend hname .greater
  | less hend hname => exact hbefore hend hname .less
  | ampersand => rintro ⟨⟩
  | word hend hname => simp [joins, hname, hend] at hj
  | dollar d hname =>
    simp only [joins, hname, Bool.not_eq_false'] at hj
    obtain ⟨name, rest, hread⟩ := readAll_reference hj h
    rw [readAll_behind_dollar]
    exact dollar_ne_reference hread
  | @name c chars d hname =>
    simp only [joins, hname, Bool.not_eq_false'] at hj
    cases q with
    | nil => cases hj
    | cons e q =>
      have he : Text.isNameChar e = true := hj
      rw [readAll_name, List.takeWhile_cons_of_pos he] at h
      rw [readAll_behind_name]
      refine name_ne_prefix (fun heq => ?_) h
      have hlength := congrArg List.length (String.ofList_injective heq)
      simp at hlength

end Scanner

/-- A line continuation between two texts, the first of which has no quotes, leaves no trace if the
texts join. If they do not, and the second one does not begin with a comment, it changes the
tokens. -/
theorem scan_continuation {p : List Char} (hp : IsUnquoted p) (q : List Char) :
    (joins p q = true → scan (p ++ '\\' :: '\n' :: q) = scan (p ++ q)) ∧
      (joins p q = false → q.head? ≠ some '#' → ∀ tokens, scan (p ++ q) = .ok tokens →
        scan (p ++ '\\' :: '\n' :: q) ≠ .ok tokens) := by
  cases hrun : Scanner.start.run p with
  | error e =>
    have herror : ∀ q, scan (p ++ q) = .error e := by
      intro q
      simp only [scan, Scanner.run_append, hrun]
    refine ⟨fun _ => (herror _).trans (herror q).symm, fun _ _ tokens htokens => ?_⟩
    rw [herror] at htokens
    cases htokens
  | ok s =>
    obtain ⟨ts, m⟩ := s
    have hm : Scanner.Reached p.reverse m := by
      have hreach := Scanner.run_reached hp [] (.between rfl rfl) hrun
      rwa [List.append_nil] at hreach
    refine ⟨fun hj => ?_, fun hj hq tokens htokens htokens' => ?_⟩
    · rw [Scanner.scan_eq_readAll, Scanner.scan_eq_readAll, Scanner.readAll_append hrun,
        Scanner.readAll_append hrun, Scanner.readAll_joined hm hj]
    · obtain ⟨read, hread, rfl⟩ := Scanner.scan_eq_ok.mp htokens
      obtain ⟨read', hread', heq⟩ := Scanner.scan_eq_ok.mp htokens'
      obtain rfl := List.reverse_inj.mp (List.append_cancel_right heq)
      rw [Scanner.readAll_append hrun] at hread hread'
      exact Scanner.readAll_not_joined hm hj hq hread hread'

theorem scan_continuation_in_word :
    scan "ec\\\nho $A".toList
      = .ok [.word (.ofText "echo"), .word ⟨[.variable "A"], false⟩, .eof] :=
  ((scan_continuation (p := "ec".toList) (by decide) "ho $A".toList).1 (by decide)).trans rfl

/-- A line continuation between two blanks is a word. -/
theorem continuation_between_blanks :
    scan "echo \\\n b".toList
        = .ok [.word (.ofText "echo"), .word (.ofText ""), .word (.ofText "b"), .eof] ∧
      scan "echo  b".toList = .ok [.word (.ofText "echo"), .word (.ofText "b"), .eof] :=
  ⟨rfl, rfl⟩

end Runnel
