import Runnel.Flow.Context
import Runnel.Proofs.Command.Drafts
import Runnel.Proofs.Command.Written

/-!
# Runnel.Proofs.Command.Fields

How many fields a word is. Only the values of variables are meant to be split, but the splitting
does not know where a blank comes from. A word with a reference and without quotes falls apart at a
blank that was written behind a backslash.

* `Word.value`: the text that a word stands for.
* `Word.Solid`: the word has no blank of its own. Words of a text without an escaped blank are solid
  or quoted (`Composed.solid`).
* `Context.expand_scanned`: when a word is one field, in a context without a blank.
-/

namespace Runnel
namespace Text

/-- No character is blank. -/
def Solid (text : List Char) : Prop :=
  ∀ c ∈ text, isBlank c = false

instance (text : List Char) : Decidable (Solid text) :=
  List.decidableBAll (fun c => isBlank c = false) text

@[simp]
theorem solid_nil : Solid [] :=
  nofun

@[simp]
theorem solid_append {a b : List Char} : Solid (a ++ b) ↔ Solid a ∧ Solid b :=
  List.forall_mem_append

@[simp]
theorem solid_cons {c : Char} {text : List Char} :
    Solid (c :: text) ↔ isBlank c = false ∧ Solid text :=
  List.forall_mem_cons

@[simp]
theorem solid_reverse {text : List Char} : Solid text.reverse ↔ Solid text := by
  simp [Solid]

theorem fieldsFrom_of_solid {text : List Char} (h : Solid text) (word : List Char) :
    fieldsFrom word text = if word = [] ∧ text = [] then [] else [word.reverse ++ text] := by
  induction text generalizing word with
  | nil => simp [fieldsFrom]
  | cons c text ih =>
    obtain ⟨hc, htext⟩ := solid_cons.mp h
    simp [fieldsFrom, hc, ih htext]

theorem solid_of_mem_fieldsFrom {text word field : List Char} (hword : Solid word)
    (h : field ∈ fieldsFrom word text) : Solid field := by
  induction text generalizing word with
  | nil =>
    simp only [fieldsFrom] at h
    split at h
    · cases h
    · rw [List.mem_singleton.mp h]
      exact solid_reverse.mpr hword
  | cons c text ih =>
    simp only [fieldsFrom] at h
    split at h
    · split at h
      · exact ih solid_nil h
      · rcases List.mem_cons.mp h with rfl | h
        · exact solid_reverse.mpr hword
        · exact ih solid_nil h
    · rename_i hc
      exact ih (solid_cons.mpr ⟨Bool.eq_false_iff.mpr hc, hword⟩) h

theorem fields_of_solid {text : String} (h : Solid text.toList) :
    fields text = if text = "" then [] else [text] := by
  rw [fields, fieldsFrom_of_solid h]
  by_cases htext : text = ""
  · simp [htext]
  · simp [htext]

theorem solid_of_mem_fields {text field : String} (h : field ∈ fields text) :
    Solid field.toList := by
  obtain ⟨chars, hchars, rfl⟩ := List.mem_map.mp h
  rw [String.toList_ofList]
  exact solid_of_mem_fieldsFrom solid_nil hchars

theorem solid_digits (n : Nat) : Solid (digits n).toList := by
  intro c hc
  rw [digits, String.toList_ofList] at hc
  have hdigit := Nat.isDigit_of_mem_toDigits (by decide) (by decide) hc
  refine not_blank_of_safe (isWordSafe_of_isNameChar ?_)
  simp [isNameChar, Char.isAlphanum, hdigit]

theorem solid_signedDigits (n : Int) : Solid (signedDigits n).toList := by
  cases n with
  | ofNat n => exact solid_digits n
  | negSucc n =>
    simp only [signedDigits, String.toList_append]
    exact solid_append.mpr ⟨by decide, solid_digits (n + 1)⟩

end Text

/-- The text that a segment stands for. -/
def Part.value (lookup : String → Option String) : Part → String
  | .literal text => text
  | .variable name => (lookup name).getD ""

/-- The segment has no blank of its own. -/
def Part.Solid : Part → Prop
  | .literal text => Text.Solid text.toList
  | .variable _ => True

namespace Word

variable {lookup : String → Option String} {strict : Bool}

/-- The text that a word stands for. -/
def value (lookup : String → Option String) (w : Word) : String :=
  String.join (w.parts.map (Part.value lookup))

/-- The word has no blank of its own. -/
def Solid (w : Word) : Prop :=
  ∀ part ∈ w.parts, part.Solid

theorem toList_value (w : Word) :
    (w.value lookup).toList = w.parts.flatMap fun part => (part.value lookup).toList := by
  simp [value, List.flatMap_map]

/-- Without a blank in the values, the blanks of the text are those of the word. -/
theorem solid_value_iff (hvalues : ∀ name value, lookup name = some value → Text.Solid value.toList)
    (w : Word) : Text.Solid (w.value lookup).toList ↔ w.Solid := by
  have hpart : ∀ part : Part, Text.Solid (part.value lookup).toList ↔ part.Solid := by
    rintro (text | name)
    · rfl
    · refine iff_of_true ?_ trivial
      cases hname : lookup name with
      | none => simp [Part.value, hname]
      | some value => simpa [Part.value, hname] using hvalues name value hname
  rw [toList_value]
  simp only [Solid, ← hpart, Text.Solid, List.mem_flatMap]
  grind

theorem expandParts_eq {parts : List Part}
    (hset : strict = true → ∀ name, Part.variable name ∈ parts → (lookup name).isSome = true) :
    expandParts lookup strict parts = .ok (String.join (parts.map (Part.value lookup))) := by
  induction parts with
  | nil => rfl
  | cons part parts ih =>
    have ih := ih fun hstrict name hname => hset hstrict name (List.mem_cons_of_mem _ hname)
    cases part with
    | literal text => simp [expandParts, ih, Part.value]
    | «variable» name =>
      cases hname : lookup name with
      | none =>
        have hstrict : strict = false := by
          by_contra hstrict
          have := hset (by simpa using hstrict) name List.mem_cons_self
          rw [hname] at this
          cases this
        subst hstrict
        simp [expandParts, ih, Part.value, hname]
      | some value => simp [expandParts, ih, Part.value, hname]

/-- A word is one field, or none if it is empty, if and only if it is quoted, refers to no variable
or has no blank of its own. -/
theorem expand_iff (hvalues : ∀ name value, lookup name = some value → Text.Solid value.toList)
    {w : Word}
    (hset : strict = true → ∀ name, Part.variable name ∈ w.parts → (lookup name).isSome = true) :
    ∃ fields, w.expand lookup strict = .ok fields ∧
      (fields.length ≤ 1 ∧ (w.value lookup ≠ "" → fields = [w.value lookup]) ↔
        w.quoted = true ∨ w.hasVariables = false ∨ w.Solid) := by
  rw [expand, expandParts_eq hset]
  by_cases hwhole : w.quoted = true ∨ w.hasVariables = false
  · refine ⟨[w.value lookup], if_pos (by simpa using hwhole), ?_⟩
    exact iff_of_true ⟨Nat.le_refl 1, fun _ => rfl⟩ (by tauto)
  · refine ⟨Text.fields (w.value lookup), if_neg (by simpa using hwhole), ?_⟩
    have hsolid : (w.quoted = true ∨ w.hasVariables = false ∨ w.Solid) ↔
        Text.Solid (w.value lookup).toList := by
      rw [solid_value_iff hvalues, ← or_assoc, or_iff_right hwhole]
    rw [hsolid]
    refine ⟨fun h => ?_, fun h => ?_⟩
    · by_cases hempty : w.value lookup = ""
      · simp [hempty]
      · exact Text.solid_of_mem_fields (by rw [h.2 hempty]; exact List.mem_singleton_self _)
    · rw [Text.fields_of_solid h]
      split
      · exact ⟨Nat.zero_le 1, fun hne => absurd ‹_› hne⟩
      · exact ⟨Nat.le_refl 1, fun _ => rfl⟩

end Word

/-! ## Words of a text -/

/-- The segments so far have no blank of their own. -/
def WordDraft.Solid (d : WordDraft) : Prop :=
  (∀ part ∈ d.parts, part.Solid) ∧ Text.Solid d.current

theorem WordDraft.Solid.flushed {d : WordDraft} (h : d.Solid) : ∀ part ∈ d.flushed, part.Solid := by
  intro part hpart
  unfold WordDraft.flushed at hpart
  split at hpart
  · exact h.1 part hpart
  · rcases List.mem_cons.mp hpart with rfl | hpart
    · simpa [Part.Solid] using h.2
    · exact h.1 part hpart

/-- A draft without an escaped blank has a blank only in quotes. -/
theorem WordDraft.Written.solid {d : WordDraft} (h : d.Written fun c => Text.isBlank c = false) :
    d.quoted = true ∨ d.Solid := by
  induction h with
  | empty => exact .inr ⟨nofun, Text.solid_nil⟩
  | bare _ hc _ ih | escaped _ hc ih =>
    exact ih.imp_right fun h => ⟨h.1, Text.solid_cons.mpr ⟨hc, h.2⟩⟩
  | quoted _ hq _ => exact .inl hq
  | quote => exact .inl rfl
  | touch _ ih => exact ih
  | reference _ _ ih =>
    exact ih.imp_right fun h => ⟨List.forall_mem_cons.mpr ⟨trivial, h.flushed⟩, Text.solid_nil⟩

/-- So has a word that is one of a text without an escaped blank. -/
theorem Composed.solid {tokens : List Token} (h : Composed (fun c => Text.isBlank c = false) tokens)
    {w : Word} (hw : Token.word w ∈ tokens) : w.quoted = true ∨ w.Solid := by
  obtain ⟨d, hd, hfinish⟩ := h w hw
  unfold WordDraft.finish at hfinish
  split at hfinish
  · cases hfinish
  split at hfinish
  · cases hfinish
    exact .inr (List.forall_mem_singleton.mpr Text.solid_nil)
  · cases hfinish
    exact hd.solid.imp_right fun h part hpart => h.flushed part (List.mem_reverse.mp hpart)

/-- In a context without a blank, a word of a text is one field, or none if it is empty, if and only
if it is quoted, refers to no variable or has no blank of its own. It is, if the text escapes no
blank. -/
theorem Context.expand_scanned {text : List Char} {tokens : List Token} {w : Word} {ctx : Context}
    (h : scan text = .ok tokens) (hw : Token.word w ∈ tokens)
    (hvalues : ∀ name value, ctx.env.get? name = some value → Text.Solid value.toList)
    (hset : ctx.settings.nounset = true →
      ∀ name, Part.variable name ∈ w.parts → (ctx.get? name).isSome = true) :
    ∃ fields, ctx.expand w = .ok fields ∧
      (fields.length ≤ 1 ∧ (w.value ctx.get? ≠ "" → fields = [w.value ctx.get?]) ↔
        w.quoted = true ∨ w.hasVariables = false ∨ w.Solid) ∧
      ((∀ front c rest, text = front ++ '\\' :: c :: rest → c ≠ '\n' → Text.isBlank c = false) →
        fields.length ≤ 1 ∧ (w.value ctx.get? ≠ "" → fields = [w.value ctx.get?])) := by
  have hget : ∀ name value, ctx.get? name = some value → Text.Solid value.toList := by
    intro name value hvalue
    unfold Context.get? at hvalue
    split at hvalue
    · cases hvalue
      exact Text.solid_signedDigits ctx.status
    · exact hvalues name value hvalue
  obtain ⟨fields, hfields, hiff⟩ := Word.expand_iff hget hset
  refine ⟨fields, hfields, hiff, fun hescaped => hiff.mpr ?_⟩
  exact ((scan_written h hescaped).solid hw).imp_right .inr

namespace Splitting

/-- `X` is `v`, and what is unset is an error. -/
def context : Context :=
  ⟨"/", [("X", "v")], 0, { Settings.off with nounset := true }, true, ⟨"/bin/sh", ["-c"]⟩, 0, 0⟩

theorem solid_of_get? (name value : String) (h : context.env.get? name = some value) :
    Text.Solid value.toList := by
  by_cases hname : name = "X"
  · subst hname
    cases h
    decide
  · simp [context, Environment.get?, hname] at h

theorem isSome_get? {quoted : Bool} (name : String)
    (h : Part.variable name ∈ (⟨[.literal "a ", .variable "X"], quoted⟩ : Word).parts) :
    (context.get? name).isSome = true := by
  simp only [List.mem_cons, reduceCtorEq, false_or, List.not_mem_nil, or_false,
    Part.variable.injEq] at h
  rw [h]
  rfl

end Splitting

/-- A blank in quotes is one. -/
theorem Context.expand_scanned_quotes :
    scan "\"a $X\"".toList = .ok [.word ⟨[.literal "a ", .variable "X"], true⟩, .eof] ∧
      Splitting.context.expand ⟨[.literal "a ", .variable "X"], true⟩ = .ok ["a v"] := by
  have hscan : scan "\"a $X\"".toList
      = .ok [.word ⟨[.literal "a ", .variable "X"], true⟩, .eof] := rfl
  obtain ⟨fields, hfields, hiff, -⟩ := Context.expand_scanned hscan List.mem_cons_self
    Splitting.solid_of_get? fun _ => Splitting.isSome_get?
  have hone := (hiff.mpr (.inl rfl)).2 (by decide)
  exact ⟨hscan, hfields.trans (congrArg _ hone)⟩

/-- A blank behind a backslash separates two fields. -/
theorem Context.expand_escaped :
    scan "a\\ $X".toList = .ok [.word ⟨[.literal "a ", .variable "X"], false⟩, .eof] ∧
      (∀ name value, Splitting.context.env.get? name = some value → Text.Solid value.toList) ∧
      (∀ name, Part.variable name ∈ [Part.literal "a ", .variable "X"] →
        (Splitting.context.get? name).isSome = true) ∧
      Splitting.context.expand ⟨[.literal "a ", .variable "X"], false⟩ = .ok ["a", "v"] :=
  ⟨rfl, Splitting.solid_of_get?, @Splitting.isSome_get? false, by decide⟩

end Runnel
