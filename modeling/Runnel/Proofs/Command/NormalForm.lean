import Mathlib.Data.List.Chain
import Runnel.Proofs.Command.Continuation
import Runnel.Proofs.Command.Written

/-!
# Runnel.Proofs.Command.NormalForm

The words that command text is made of. A reader completes literal text only in front of a reference
and at the end of the word, so that no two literal segments meet and none of them is empty.

* `Word.Normal`: the form in which all words are.
* `WordDraft.Written.normal`: what a reader keeps of it while it reads.
* `scan_normal`: the tokens of a text end with the end of the text, and their words are normal.
* `exists_scan_iff`: all normal words are read from some text, up to newlines, for which a word needs
  quotes.
-/

namespace Runnel

/-! ## Normal words -/

namespace Part

/-- One of the two is a reference. -/
def Apart (p q : Part) : Prop :=
  p.isVariable = true ∨ q.isVariable = true

instance (p q : Part) : Decidable (Apart p q) :=
  inferInstanceAs (Decidable (_ ∨ _))

/-- A reference names the last exit code or a variable. -/
def isNamed : Part → Bool
  | .literal _ => true
  | .variable name => name == "?" || Text.isIdentifier name.toList

/-- No two literal segments meet, none is empty, and the references have names. -/
structure Normal (ps : List Part) : Prop where
  parted : ps.IsChain Apart
  full : .literal "" ∉ ps
  named : ∀ p ∈ ps, p.isNamed = true

namespace Normal

variable {ps : List Part}

theorem nil : Normal [] :=
  ⟨.nil, List.not_mem_nil, nofun⟩

theorem cons (h : Normal ps) {p : Part} (hp : ∀ q ∈ ps.head?, p.Apart q) (hfull : p ≠ .literal "")
    (hnamed : p.isNamed = true) : Normal (p :: ps) where
  parted := h.parted.cons hp
  full := List.not_mem_cons_of_ne_of_not_mem hfull.symm h.full
  named := List.forall_mem_cons.mpr ⟨hnamed, h.named⟩

theorem tail {p : Part} (h : Normal (p :: ps)) : Normal ps where
  parted := h.parted.of_cons
  full := fun hmem => h.full (List.mem_cons_of_mem p hmem)
  named := (List.forall_mem_cons.mp h.named).2

theorem reverse (h : Normal ps) : Normal ps.reverse where
  parted := List.isChain_reverse.mpr (h.parted.imp fun _ _ => Or.symm)
  full := fun hmem => h.full (List.mem_reverse.mp hmem)
  named := fun p hp => h.named p (List.mem_reverse.mp hp)

end Normal
end Part

/-- A word has segments. No two literal ones meet, an empty one stands alone, and the references have
names. -/
structure Word.Normal (w : Word) : Prop where
  nonempty : w.parts ≠ []
  parted : w.parts.IsChain Part.Apart
  alone : .literal "" ∈ w.parts → w.parts = [.literal ""]
  named : ∀ p ∈ w.parts, p.isNamed = true

instance (w : Word) : Decidable w.Normal :=
  decidable_of_iff
    (w.parts ≠ [] ∧ w.parts.IsChain Part.Apart ∧
      (.literal "" ∈ w.parts → w.parts = [.literal ""]) ∧ ∀ p ∈ w.parts, p.isNamed = true)
    ⟨fun ⟨hne, hparted, halone, hnamed⟩ => ⟨hne, hparted, halone, hnamed⟩,
      fun h => ⟨h.nonempty, h.parted, h.alone, h.named⟩⟩

theorem Part.Normal.word {ps : List Part} (h : Normal ps) (hne : ps ≠ []) (quoted : Bool) :
    Word.Normal ⟨ps, quoted⟩ :=
  ⟨hne, h.parted, fun hmem => absurd hmem h.full, h.named⟩

theorem Word.normal_empty (quoted : Bool) : Word.Normal ⟨[.literal ""], quoted⟩ :=
  ⟨List.cons_ne_nil _ _, .singleton _, fun _ => rfl, by simp [Part.isNamed]⟩

/-! ## Words that are being read -/

/-- The complete segments are normal, and the last one of them is a reference. -/
structure WordDraft.Normal (d : WordDraft) : Prop where
  parts : Part.Normal d.parts
  last : ∀ p ∈ d.parts.head?, p.isVariable = true

namespace WordDraft

variable {d : WordDraft}

theorem Normal.flushed (h : d.Normal) : Part.Normal d.flushed := by
  unfold WordDraft.flushed
  split
  · exact h.parts
  · rename_i hcurrent
    refine h.parts.cons (fun q hq => .inr (h.last q hq)) ?_ rfl
    intro heq
    have htext : d.current.reverse = [] := String.ofList_eq_empty_iff.mp (Part.literal.inj heq)
    exact hcurrent (List.isEmpty_iff.mpr (List.reverse_eq_nil_iff.mp htext))

theorem Normal.reference (h : d.Normal) {name : String}
    (hname : name = "?" ∨ Text.isIdentifier name.toList = true) : (d.pushVariable name).Normal where
  parts := h.flushed.cons (fun _ _ => .inl rfl) nofun (by simpa [Part.isNamed] using hname)
  last := by simp [pushVariable, Part.isVariable]

/-- Every draft that a reader comes to is normal. -/
theorem Written.normal {p : Char → Prop} (h : Written p d) : d.Normal := by
  induction h with
  | empty => exact ⟨.nil, nofun⟩
  | bare _ _ _ ih | escaped _ _ ih | quoted _ _ ih | quote _ ih | touch _ ih => exact ⟨ih.1, ih.2⟩
  | reference _ hname ih => exact ih.reference hname

/-- What a draft can end as. -/
theorem finish_cases {w : Word} (h : d.finish = some w) :
    w = ⟨[.literal ""], d.quoted⟩ ∨ d.segments ≠ [] ∧ w = ⟨d.segments, d.quoted⟩ := by
  unfold WordDraft.finish at h
  split at h
  · cases h
  split at h
  · cases h
    exact .inl rfl
  · rename_i hsome
    cases h
    refine .inr ⟨fun hnil => hsome ?_, rfl⟩
    by_cases hcurrent : d.current = []
    · rw [segments_of_no_current hcurrent, List.reverse_eq_nil_iff] at hnil
      rw [hnil, hcurrent]
      rfl
    · rw [segments_of_current hcurrent] at hnil
      exact absurd hnil (List.append_ne_nil_of_right_ne_nil _ (List.cons_ne_nil _ _))

theorem Normal.finish (h : d.Normal) {w : Word} (hw : d.finish = some w) : w.Normal := by
  rcases finish_cases hw with rfl | ⟨hne, rfl⟩
  · exact Word.normal_empty d.quoted
  · exact h.flushed.reverse.word hne d.quoted

end WordDraft

/-- The tokens of a text end with its end, which stands nowhere else, and their words are normal. -/
theorem scan_normal {text : List Char} {tokens : List Token} (h : scan text = .ok tokens) :
    (∃ read, tokens = read ++ [.eof] ∧ Token.eof ∉ read) ∧
      ∀ w, .word w ∈ tokens → w.Normal := by
  refine ⟨scan_terminated h, fun w hw => ?_⟩
  obtain ⟨d, hd, hfinish⟩ := scan_written (p := fun _ => True) h (fun _ _ _ _ _ => trivial) w hw
  exact hd.normal.finish hfinish

theorem scan_normal_mixed :
    scan "a'$b'\"$c$?\"'' \\\n|$_1'='".toList
        = .ok [.word ⟨[.literal "a$b", .variable "c", .variable "?"], true⟩, .word (.ofText ""), .pipe,
            .word ⟨[.variable "_1", .literal "="], true⟩, .eof] ∧
      Word.Normal ⟨[.literal "a$b", .variable "c", .variable "?"], true⟩ ∧
      Word.Normal (.ofText "") := by
  have hscan : scan "a'$b'\"$c$?\"'' \\\n|$_1'='".toList
      = .ok [.word ⟨[.literal "a$b", .variable "c", .variable "?"], true⟩, .word (.ofText ""), .pipe,
          .word ⟨[.variable "_1", .literal "="], true⟩, .eof] := rfl
  have hnormal := (scan_normal hscan).2
  exact ⟨hscan, hnormal _ (by simp), hnormal _ (by simp)⟩

/-! ## Text of a normal word -/

/-- No literal segment has a newline. -/
def Part.Unbroken (ps : List Part) : Prop :=
  ∀ text, .literal text ∈ ps → '\n' ∉ text.toList

/-- Text that is read as this character of a word. -/
def escapedChar (c : Char) : List Char :=
  if c == '\n' then ['\'', c, '\''] else ['\\', c]

/-- Text that is read as this segment. -/
def Part.spelled : Part → List Char
  | .literal text => text.toList.flatMap escapedChar
  | .variable name => '$' :: name.toList

/-- Text that is read as this word. It begins with a pair of quotes, or with a line continuation if
there must not be any. -/
def Word.spelled (w : Word) : List Char :=
  (if w.quoted then ['\'', '\''] else ['\\', '\n']) ++ w.parts.flatMap Part.spelled

namespace WordDraft

/-- The draft with the characters of a literal segment, or with a reference. -/
def add (d : WordDraft) : Part → WordDraft
  | .literal text => { d with current := text.toList.reverse ++ d.current }
  | .variable name => d.pushVariable name

/-- A draft to which normal segments are added has them at its end, each as a segment of its own. -/
theorem segments_foldl_add {ps : List Part} (h : Part.Normal ps) {d : WordDraft}
    (hd : d.started = true) (hcurrent : d.current = [] ∨ ∀ p ∈ ps.head?, p.isVariable = true) :
    (ps.foldl add d).segments = d.segments ++ ps ∧ (ps.foldl add d).started = true ∧
      (ps.foldl add d).quoted = d.quoted := by
  induction ps generalizing d with
  | nil => simp [hd]
  | cons p ps ih =>
    rw [List.foldl_cons]
    cases p with
    | «variable» name =>
      obtain ⟨hsegments, hrest⟩ := ih h.tail (d := d.pushVariable name) rfl (.inl rfl)
      refine ⟨?_, hrest⟩
      rw [add, hsegments, segments_pushVariable, List.append_assoc]
      rfl
    | literal text =>
      have hempty : d.current = [] := hcurrent.resolve_right fun hhead => by
        simpa [Part.isVariable] using hhead (.literal text) rfl
      have hadd : d.add (.literal text) = { d with current := text.toList.reverse } := by
        rw [add, hempty, List.append_nil]
      have htext : text.toList ≠ [] := fun hnil =>
        h.full (by simp [String.toList_eq_nil_iff.mp hnil])
      have hlast : (d.add (.literal text)).segments = d.segments ++ [.literal text] := by
        rw [hadd, segments_of_current (by simpa using htext), segments_of_no_current hempty]
        simp
      -- what follows literal text is a reference
      have hnext : ∀ q ∈ ps.head?, q.isVariable = true := fun q hq =>
        (h.parted.rel_head? hq).resolve_left Bool.false_ne_true
      obtain ⟨hsegments, hstarted, hquoted⟩ :=
        ih h.tail (d := d.add (.literal text)) hd (.inr hnext)
      refine ⟨?_, hstarted, hquoted⟩
      rw [hsegments, hlast, List.append_assoc]
      rfl

theorem finish_of_segments {d : WordDraft} (hd : d.started = true) (hs : d.segments ≠ []) :
    d.finish = some ⟨d.segments, d.quoted⟩ := by
  unfold WordDraft.finish
  rw [if_neg (by simp [hd]), if_neg]
  · rfl
  · intro hempty
    simp only [Bool.and_eq_true, List.isEmpty_iff] at hempty
    exact hs (by rw [segments_of_no_current hempty.2, hempty.1, List.reverse_nil])

/-- A word in which nothing was read but perhaps a pair of quotes. -/
def begun (quoted : Bool) : WordDraft := ⟨[], [], quoted, true⟩

/-- The segments of a normal word, added one after the other, make up the word. -/
theorem finish_foldl_add {w : Word} (h : w.Normal) :
    (w.parts.foldl add (begun w.quoted)).finish = some w := by
  by_cases hempty : .literal "" ∈ w.parts
  · rw [h.alone hempty]
    exact congrArg some (congrArg (Word.mk · w.quoted) (h.alone hempty).symm)
  · have hparts : Part.Normal w.parts := ⟨h.parted, hempty, h.named⟩
    obtain ⟨hsegments, hstarted, hquoted⟩ :=
      segments_foldl_add hparts (d := begun w.quoted) rfl (.inl rfl)
    have hsegments : (w.parts.foldl add (begun w.quoted)).segments = w.parts := hsegments
    rw [finish_of_segments hstarted (by rw [hsegments]; exact h.nonempty), hsegments, hquoted]
    rfl

end WordDraft

namespace Scanner

variable {ts : List Token} {d : WordDraft}

theorem run_escapedChar {c : Char} (h : d.quoted = true ∨ c ≠ '\n') :
    run ⟨ts, .word d⟩ (escapedChar c) = .ok ⟨ts, .word (d.push c)⟩ := by
  by_cases hc : c = '\n'
  · subst hc
    have hquote : d.enterQuote.push '\n' = d.push '\n' := by
      simp [WordDraft.enterQuote, WordDraft.push, h.resolve_right (not_not_intro rfl)]
    rw [← hquote]
    rfl
  · have hbeq : (c == '\n') = false := beq_eq_false_iff_ne.mpr hc
    have hescape : step ⟨ts, .word d⟩ '\\' = .ok ⟨ts, .wordEscape d⟩ := rfl
    have hstep : step ⟨ts, .wordEscape d⟩ c = .ok ⟨ts, .word (d.push c)⟩ := by
      simp [step, hbeq]
    simp only [escapedChar, hbeq, Bool.false_eq_true, if_false, run, hescape, hstep]

theorem run_escaped (hd : d.started = true) {chars : List Char}
    (h : d.quoted = true ∨ '\n' ∉ chars) :
    run ⟨ts, .word d⟩ (chars.flatMap escapedChar)
      = .ok ⟨ts, .word { d with current := chars.reverse ++ d.current }⟩ := by
  induction chars generalizing d with
  | nil => rfl
  | cons c chars ih =>
    rw [List.mem_cons, not_or] at h
    have hpush : d.push c = { d with current := c :: d.current } := by
      rw [WordDraft.push, hd]
    have hrest := ih (d := d.push c) rfl (h.imp_right And.right)
    rw [List.flatMap_cons, run_append_of_ok (run_escapedChar (h.imp_right fun h => Ne.symm h.1)),
      hrest, hpush]
    simp

/-- Text that is read as segments does not go on with a name. -/
theorem not_name_spelled (ps : List Part) :
    ∀ c ∈ (ps.flatMap Part.spelled).head?, Text.isNameChar c = false := by
  induction ps with
  | nil => simp
  | cons p ps ih =>
    rw [List.flatMap_cons]
    cases p with
    | «variable» name =>
      rintro c ⟨⟩
      rfl
    | literal text =>
      rw [Part.spelled]
      cases text.toList with
      | nil => exact ih
      | cons c chars =>
        rw [List.flatMap_cons, escapedChar]
        split
        all_goals
          rintro c ⟨⟩
          rfl

theorem step_dollar_nameStart {c : Char} (h : Text.isNameStart c = true) :
    step ⟨ts, .dollar .bare d⟩ c = .ok ⟨ts, .name .bare [c] d⟩ := by
  have hne : ∀ e, Text.isNameStart e = false → (c == e) = false := by
    intro e he
    rw [beq_eq_false_iff_ne]
    rintro rfl
    rw [h] at he
    cases he
  simp [step, hne '(' (by decide), hne '\x7b' (by decide), hne '?' (by decide), h]

/-- A name ends in front of what is no part of a name. -/
theorem readAll_name_end {begun chars q : List Char} (h : ∀ c ∈ chars, Text.isNameChar c = true)
    (hq : ∀ c ∈ q.head?, Text.isNameChar c = false) :
    readAll ⟨ts, .name .bare begun d⟩ (chars ++ q)
      = readAll ⟨ts, .word (d.pushVariable (String.ofList (begun.reverse ++ chars)))⟩ q := by
  rw [readAll_name, List.takeWhile_append_of_pos h, List.dropWhile_append_of_pos h]
  cases q with
  | nil => rw [List.takeWhile_nil, List.dropWhile_nil, List.append_nil]
  | cons c q =>
    have hc : ¬ Text.isNameChar c = true := by simp [hq c rfl]
    rw [List.takeWhile_cons_of_neg hc, List.dropWhile_cons_of_neg hc, List.append_nil]

theorem readAll_variable {name : String} (hname : Part.isNamed (.variable name) = true)
    {q : List Char} (hq : ∀ c ∈ q.head?, Text.isNameChar c = false) :
    readAll ⟨ts, .word d⟩ ('$' :: name.toList ++ q)
      = readAll ⟨ts, .word (d.pushVariable name)⟩ q := by
  have hdollar : step ⟨ts, .word d⟩ '$' = .ok ⟨ts, .dollar .bare d⟩ := rfl
  rw [List.cons_append, readAll_cons hdollar]
  rcases (Bool.or_eq_true_iff ..).mp hname with hstatus | hname
  · obtain rfl : name = "?" := beq_iff_eq.mp hstatus
    rfl
  · cases hchars : name.toList with
    | nil =>
      rw [hchars] at hname
      cases hname
    | cons c chars =>
      rw [hchars, Text.isIdentifier, Bool.and_eq_true, List.all_eq_true] at hname
      have htext : String.ofList ([c].reverse ++ chars) = name := by
        rw [List.reverse_singleton, List.singleton_append, ← hchars, String.ofList_toList]
      rw [List.cons_append, readAll_cons (step_dollar_nameStart hname.1),
        readAll_name_end hname.2 hq, htext]

theorem readAll_spelled (hd : d.started = true) {ps : List Part}
    (hnamed : ∀ p ∈ ps, p.isNamed = true)
    (h : d.quoted = true ∨ Part.Unbroken ps) :
    readAll ⟨ts, .word d⟩ (ps.flatMap Part.spelled)
      = .ok (emitWord ts (ps.foldl WordDraft.add d)) := by
  induction ps generalizing d with
  | nil => rfl
  | cons p ps ih =>
    rw [List.forall_mem_cons] at hnamed
    have hrest : d.quoted = true ∨ Part.Unbroken ps :=
      h.imp_right fun h text hmem => h text (List.mem_cons_of_mem p hmem)
    rw [List.flatMap_cons, List.foldl_cons]
    cases p with
    | «variable» name =>
      rw [Part.spelled, readAll_variable hnamed.1 (not_name_spelled ps)]
      exact ih rfl hnamed.2 hrest
    | literal text =>
      have hchars : d.quoted = true ∨ '\n' ∉ text.toList :=
        h.imp_right fun h => h text List.mem_cons_self
      rw [Part.spelled, readAll_append (run_escaped hd hchars)]
      exact ih hd hnamed.2 hrest

/-- Every normal word is read from the text that is spelled for it, if it has quotes wherever it has
newlines. -/
theorem scan_spelled {w : Word} (h : w.Normal)
    (hlines : w.quoted = true ∨ Part.Unbroken w.parts) :
    scan w.spelled = .ok [.word w, .eof] := by
  have hbegun : start.run (if w.quoted then ['\'', '\''] else ['\\', '\n'])
      = .ok ⟨[], .word (.begun w.quoted)⟩ := by
    cases w.quoted <;> rfl
  refine scan_eq_ok.mpr ⟨[.word w], ?_, rfl⟩
  rw [Word.spelled, readAll_append hbegun, readAll_spelled rfl h.named hlines, emitWord,
    WordDraft.finish_foldl_add h]

end Scanner

/-! ## Words without quotes -/

theorem Part.Unbroken.flushed {d : WordDraft} (h : Unbroken d.parts) (hcurrent : '\n' ∉ d.current) :
    Unbroken d.flushed := by
  unfold WordDraft.flushed
  split
  · exact h
  · intro text hmem
    rcases List.mem_cons.mp hmem with heq | hmem
    · cases heq
      simpa using hcurrent
    · exact h text hmem

/-- A draft without quotes has no newlines. -/
theorem WordDraft.Written.unbroken {d : WordDraft} (h : Written (· ≠ '\n') d)
    (hq : d.quoted = false) : '\n' ∉ d.current ∧ Part.Unbroken d.parts := by
  induction h with
  | empty => exact ⟨List.not_mem_nil, nofun⟩
  | bare _ hb _ ih =>
    refine ⟨List.not_mem_cons_of_ne_of_not_mem ?_ (ih hq).1, (ih hq).2⟩
    rintro rfl
    cases hb
  | escaped _ hc ih =>
    exact ⟨List.not_mem_cons_of_ne_of_not_mem hc.symm (ih hq).1, (ih hq).2⟩
  | quoted _ hquoted _ =>
    rw [WordDraft.push, hquoted] at hq
    cases hq
  | quote _ _ => cases hq
  | touch _ ih => exact ih hq
  | reference _ _ ih =>
    refine ⟨List.not_mem_nil, fun text hmem => ?_⟩
    rcases List.mem_cons.mp hmem with heq | hmem
    · cases heq
    · exact (ih hq).2.flushed (ih hq).1 text hmem

/-- A word is read from some text exactly if it is normal, and quoted if it has newlines. -/
theorem exists_scan_iff (w : Word) :
    (∃ text tokens, scan text = .ok tokens ∧ .word w ∈ tokens) ↔
      w.Normal ∧ (w.quoted = true ∨ Part.Unbroken w.parts) := by
  constructor
  · rintro ⟨text, tokens, hscan, hw⟩
    obtain ⟨d, hd, hfinish⟩ := scan_written hscan (fun _ _ _ _ hc => hc) w hw
    refine ⟨hd.normal.finish hfinish, ?_⟩
    rcases WordDraft.finish_cases hfinish with rfl | ⟨-, rfl⟩
    · exact .inr (by simp [Part.Unbroken])
    · cases hq : d.quoted with
      | true => exact .inl rfl
      | false =>
        obtain ⟨hcurrent, hparts⟩ := hd.unbroken hq
        exact .inr fun text hmem => hparts.flushed hcurrent text (List.mem_reverse.mp hmem)
  · rintro ⟨hw, hlines⟩
    exact ⟨w.spelled, _, Scanner.scan_spelled hw hlines, List.mem_cons_self⟩

example : ¬ ∃ text tokens, scan text = .ok tokens ∧
    .word ⟨[.literal "a", .literal "b"], false⟩ ∈ tokens := by
  rw [exists_scan_iff]
  exact fun h => absurd h.1 (by decide)

end Runnel
