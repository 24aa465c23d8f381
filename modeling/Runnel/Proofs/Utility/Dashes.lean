import Runnel.Proofs.Text.Positions
import Runnel.Utility.Echo
import Runnel.Utility.Flags

/-!
# Runnel.Proofs.Utility.Dashes

Arguments behind dashes, read step by step: whatever an argument holds, it can be cut behind the
dash in front of it.

* `Risky.dashed`: the text behind the dash.
* `Risky.splitFlags_eq`, `Risky.lineCount_eq`, `Risky.echo_eq`: what is read step by step is what
  the commands read.
-/

namespace Runnel.Risky

/-- The text behind a dash, if there is any. -/
def dashed (arg : String) : Risky (Option (List Char)) :=
  if 1 < Text.width arg.toList && arg.toList.head? == some '-' then do
    let (_, letters) ← Text.cut arg.toList 1
    return some letters
  else return none

theorem dashed_eq (arg : String) : dashed arg = .ok (flagLetters arg) := by
  rw [dashed, flagLetters]
  cases arg.toList with
  | nil => rfl
  | cons c rest =>
    by_cases hc : c = '-'
    · subst hc
      cases rest with
      | nil => rfl
      | cons d rest =>
        have hwidth : 1 < Text.width ('-' :: d :: rest) := by
          have hpos := Text.width_pos (List.cons_ne_nil d rest)
          have hdash : '-'.utf8Size = 1 := rfl
          rw [Text.width_cons, hdash]
          omega
        have hcut : Text.cut ('-' :: d :: rest) 1 = .ok (['-'], d :: rest) :=
          Text.cut_width ['-'] (d :: rest)
        simp only [hwidth, hcut, List.head?_cons, beq_self_eq_true, decide_true, Bool.and_self,
          if_true, ok_bind]
        rfl
    · simp [hc]

/-! ## Flags and operands -/

/-- The letters of a cluster behind the flags before them, or the first one that is not known. -/
def pushLetters (known : List Char) : List Char → List Char → Except UsageError (List Char)
  | flags, [] => .ok flags
  | flags, c :: letters =>
    if known.contains c then pushLetters known (flags ++ [c]) letters else .error (.unknownFlag c)

/-- Flags and operands, one argument after the other. -/
def splitFlags (known : List Char) (flags : List Char) (operands : List String)
    (inFlags : Bool) : List String → Risky (Except UsageError (List Char × List String))
  | [] => return .ok (flags, operands)
  | arg :: rest =>
    if inFlags && arg == "--" then splitFlags known flags operands false rest
    else if inFlags then do
      match ← dashed arg with
      | some letters =>
        match pushLetters known flags letters with
        | .error e => return .error e
        | .ok flags => splitFlags known flags operands true rest
      | none => splitFlags known flags (operands ++ [arg]) false rest
    else splitFlags known flags (operands ++ [arg]) false rest

theorem pushLetters_eq (known flags letters : List Char) :
    pushLetters known flags letters =
      match letters.find? fun c => !known.contains c with
      | some c => .error (.unknownFlag c)
      | none => .ok (flags ++ letters) := by
  induction letters generalizing flags with
  | nil => simp [pushLetters]
  | cons c letters ih =>
    rw [pushLetters, List.find?_cons]
    cases hc : known.contains c with
    | true => simp [ih]
    | false => simp

/-- Behind the flags nothing is looked at any more. -/
theorem splitFlags_operands (known flags : List Char) (operands rest : List String) :
    splitFlags known flags operands false rest = .ok (.ok (flags, operands ++ rest)) := by
  induction rest generalizing operands with
  | nil =>
    rw [List.append_nil]
    rfl
  | cons arg rest ih => simp [splitFlags, ih]

theorem splitFlags_eq (known flags : List Char) (args : List String) :
    splitFlags known flags [] true args = .ok ((Runnel.splitFlags known args).map fun answer =>
      (flags ++ answer.1, answer.2)) := by
  induction args generalizing flags with
  | nil =>
    rw [Runnel.splitFlags, Except.map, List.append_nil]
    rfl
  | cons arg rest ih =>
    rw [splitFlags, Runnel.splitFlags]
    by_cases hdashes : arg = "--"
    · simp [hdashes, splitFlags_operands, Except.map]
    · simp only [dashed_eq, ok_bind, Bool.true_and, beq_eq_false_iff_ne.mpr hdashes,
        Bool.false_eq_true, if_false, if_true]
      cases flagLetters arg with
      | none => simp [splitFlags_operands, Except.map]
      | some letters =>
        simp only [pushLetters_eq]
        cases letters.find? fun c => !known.contains c with
        | some c => rfl
        | none =>
          simp only [ih]
          cases Runnel.splitFlags known rest with
          | ok answer => simp [Except.map]
          | error e => rfl

theorem splitFlags_start (known : List Char) (args : List String) :
    splitFlags known [] [] true args = .ok (Runnel.splitFlags known args) := by
  rw [splitFlags_eq]
  cases Runnel.splitFlags known args with
  | ok answer => rfl
  | error e => rfl

/-! ## Numbers of lines -/

/-- The text of a number of lines in an argument `-nN` or `-N`. -/
def countText (arg : String) : Risky (Option String) :=
  if ['-', 'n'].isPrefixOf arg.toList then return some (String.ofList (arg.toList.drop 2))
  else do
    match ← dashed arg with
    | some digits =>
      return if digits.all Char.isDigit then some (String.ofList digits) else none
    | none => return none

/-- The number of lines and the operands, one argument after the other. -/
def lineCount (count : Nat) (operands : List String) :
    List String → Risky (Except UsageError (Nat × List String))
  | [] => return .ok (count, operands)
  | arg :: rest =>
    if arg == "-n" then
      match rest with
      | [] => return .error .missingCount
      | value :: rest =>
        match readCount value with
        | .error e => return .error e
        | .ok n => lineCount n operands rest
    else do
      match ← countText arg with
      | some value =>
        match readCount value with
        | .error e => return .error e
        | .ok n => lineCount n operands rest
      | none => lineCount count (operands ++ [arg]) rest

theorem countText_eq (arg : String) : countText arg = .ok (countText? arg) := by
  rw [countText, countText?, dashed_eq]
  fun_cases flagLetters arg with
  | case1 c rest heq =>
    by_cases hc : c = 'n'
    · simp [heq, hc]
    · simp [heq, Ne.symm hc]
  | case2 hno =>
    have hstart : ['-', 'n'].isPrefixOf arg.toList = false := by
      rw [Bool.eq_false_iff, Ne, List.isPrefixOf_iff_prefix]
      rintro ⟨rest, heq⟩
      exact hno _ _ heq.symm
    rw [hstart, if_neg Bool.false_ne_true]
    split
    · exact absurd ‹_› (hno _ _)
    · exact absurd ‹_› (hno _ _)
    · rfl

/-- An argument that is not `-n` alone. -/
theorem lineCount_cons {arg : String} (h : ¬ (arg == "-n") = true) (count : Nat)
    (operands rest : List String) :
    lineCount count operands (arg :: rest) =
      match countText? arg with
      | some value =>
        match readCount value with
        | .error e => return .error e
        | .ok n => lineCount n operands rest
      | none => lineCount count (operands ++ [arg]) rest := by
  conv => lhs; unfold lineCount
  rw [if_neg h, countText_eq, ok_bind]

theorem lineCount_eq (count : Nat) (operands args : List String) :
    lineCount count operands args = .ok ((Runnel.lineCount count args).map fun answer =>
      (answer.1, operands ++ answer.2)) := by
  fun_induction Runnel.lineCount count args generalizing operands with
  | case1 count => simp [lineCount, Except.map]
  | case2 count arg hflag => simp [lineCount, hflag, Except.map]
  | case3 count arg hflag value rest e hcount => simp [lineCount, hflag, hcount, Except.map]
  | case4 count arg hflag value rest n hcount ih => simp [lineCount, hflag, hcount, ih]
  | case5 count arg rest hflag value htext e hcount =>
    simp [lineCount_cons hflag, htext, hcount, Except.map]
  | case6 count arg rest hflag value htext n hcount ih =>
    simp [lineCount_cons hflag, htext, hcount, ih]
  | case7 count arg rest hflag htext e hrest ih =>
    simp [lineCount_cons hflag, htext, ih, hrest, Except.map]
  | case8 count arg rest hflag htext n more hrest ih =>
    simp [lineCount_cons hflag, htext, ih, hrest, Except.map]

theorem lineCount_start (count : Nat) (args : List String) :
    lineCount count [] args = .ok (Runnel.lineCount count args) := by
  rw [lineCount_eq]
  cases Runnel.lineCount count args with
  | ok answer => rfl
  | error e => rfl

/-! ## Texts that are printed -/

/-- The letters of a cluster of flags. -/
def letters (arg : String) : Risky (Option (List Char)) := do
  match ← dashed arg with
  | some letters =>
    return if letters.all fun c => c == 'n' || c == 'e' || c == 'E' then some letters else none
  | none => return none

/-- Reads clusters of flags from the argument at a position on, up to the first argument that is
none, and says where that is. -/
def readFlags (args : List String) (f : Echo.Flags) (start : Nat) :
    List String → Risky (Echo.Flags × Nat)
  | [] => return (f, start)
  | arg :: rest => do
    match ← letters arg with
    | some letters =>
      let start ← next args start
      readFlags args (letters.foldl Echo.Flags.read f) start rest
    | none => return (f, start)

/-- The text that is printed. -/
def echo (args : List String) : Risky String := do
  let (flags, start) ← readFlags args ⟨true, false⟩ 0 args
  let words ← elementsFrom args start
  let line := Text.joinWith " " words
  let ending := if flags.newline then "\n" else ""
  if flags.escapes then
    let (interpreted, stopped) := Echo.interpret line.toList
    return if stopped then String.ofList interpreted else String.ofList interpreted ++ ending
  else return line ++ ending

theorem letters_eq (arg : String) : letters arg = .ok (Echo.letters? arg) := by
  rw [letters, dashed_eq, Echo.letters?]
  fun_cases flagLetters arg with
  | case1 c rest heq => rw [heq]; rfl
  | case2 hno =>
    split
    · exact absurd ‹_› (hno _ _)
    · rfl

theorem readFlags_eq (f : Echo.Flags) (front back : List String) :
    ∃ flags seen words, Echo.readFlags f back = (flags, words) ∧ back = seen ++ words ∧
      readFlags (front ++ back) f front.length back = .ok (flags, (front ++ seen).length) := by
  induction back generalizing f front with
  | nil => exact ⟨f, [], [], rfl, rfl, by rw [List.append_nil]; rfl⟩
  | cons arg rest ih =>
    rw [readFlags, letters_eq, Echo.readFlags]
    cases Echo.letters? arg with
    | none => exact ⟨f, [], arg :: rest, rfl, rfl, by rw [List.append_nil]; rfl⟩
    | some letters =>
      obtain ⟨flags, seen, words, hread, rfl, hrisky⟩ :=
        ih (letters.foldl Echo.Flags.read f) (front ++ [arg])
      refine ⟨flags, arg :: seen, words, hread, rfl, ?_⟩
      simp only [ok_bind, next_append]
      rw [List.append_assoc, List.append_assoc] at hrisky
      exact hrisky

theorem echo_eq (args : List String) : echo args = .ok (Echo.text args) := by
  obtain ⟨flags, seen, words, hread, hargs, hrisky⟩ := readFlags_eq ⟨true, false⟩ [] args
  rw [List.nil_append, List.length_nil, List.nil_append] at hrisky
  have hwords : elementsFrom args seen.length = .ok words := by
    rw [hargs, elementsFrom_append]
  simp only [echo, Echo.text, hread, hrisky, ok_bind, hwords, pure_eq]
  cases flags.escapes with
  | true => rfl
  | false => rfl

end Runnel.Risky
