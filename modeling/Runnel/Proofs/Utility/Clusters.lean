import Runnel.Utility.Flags

/-!
# Runnel.Proofs.Utility.Clusters

Which arguments are flags, which are operands, and which are neither.

* `IsCluster`, `Follows`: letters behind a dash, and what comes behind the last of them.
* `splitFlags_cluster`, `splitFlags_clusters`: one cluster, and a run of them.
* `exists_clusters`: all arguments are a run of clusters and what follows, or an argument with an
  unknown letter and more.
* `splitFlags_iff`: the flags are the letters of the run, and the operands stand behind it.
-/

namespace Runnel

/-- Letters behind a dash. -/
def cluster (letters : List Char) : String :=
  String.ofList ('-' :: letters)

/-- There are letters, and all of them are known. -/
def IsCluster (known letters : List Char) : Prop :=
  letters ≠ [] ∧ ∀ c ∈ letters, c ∈ known

/-- What comes behind the clusters, and the operands in it. -/
inductive Follows : List String → List String → Prop where
  /-- Nothing. -/
  | nothing : Follows [] []
  /-- Two dashes, and any arguments. -/
  | dashes (operands : List String) : Follows ("--" :: operands) operands
  /-- Arguments, the first of which is a lone dash or has none in front. -/
  | operand {arg : String} (h : arg = "-" ∨ arg.toList.head? ≠ some '-') (rest : List String) :
    Follows (arg :: rest) (arg :: rest)

/-- The arguments are clusters of these flags, and then what holds these operands. -/
def Flagged (known : List Char) (args : List String) (flags : List Char)
    (operands : List String) : Prop :=
  ∃ (clusters : List (List Char)) (rest : List String),
    (∀ letters ∈ clusters, IsCluster known letters) ∧
    args = clusters.map cluster ++ rest ∧ flags = clusters.flatten ∧ Follows rest operands

/-- Behind some clusters there is an argument with this letter, the first one that is not known. -/
def Refused (known : List Char) (args : List String) (letter : Char) : Prop :=
  ∃ (clusters : List (List Char)) (front back : List Char) (more : List String),
    (∀ letters ∈ clusters, IsCluster known letters) ∧
    args = clusters.map cluster ++ cluster (front ++ letter :: back) :: more ∧
    cluster (front ++ letter :: back) ≠ "--" ∧ (∀ c ∈ front, c ∈ known) ∧ letter ∉ known

section

variable {known letters front back : List Char} {arg : String} {args rest operands : List String}
  {clusters : List (List Char)} {letter : Char}

/-! ## One argument -/

theorem flagLetters_cluster (h : letters ≠ []) : flagLetters (cluster letters) = some letters := by
  obtain ⟨c, rest, rfl⟩ := List.exists_cons_of_ne_nil h
  rw [flagLetters, cluster, String.toList_ofList]
  rfl

theorem flagLetters_cases (arg : String) :
    (flagLetters arg = none ∧ (arg = "-" ∨ arg.toList.head? ≠ some '-')) ∨
      ∃ letters, letters ≠ [] ∧ arg = cluster letters := by
  cases harg : arg.toList with
  | nil => exact .inl ⟨by rw [flagLetters, harg], .inr nofun⟩
  | cons c chars =>
    by_cases hc : c = '-'
    · subst hc
      cases chars with
      | nil =>
        have hdash : arg = "-" := by
          rw [← String.toList_inj, harg]
          rfl
        exact .inl ⟨by rw [hdash]; rfl, .inl hdash⟩
      | cons d chars =>
        refine .inr ⟨d :: chars, List.cons_ne_nil _ _, ?_⟩
        rw [cluster, ← harg, String.ofList_toList]
    · refine .inl ⟨?_, .inr ?_⟩
      · rw [flagLetters, harg]
        split
        · rename_i heq
          exact absurd (List.cons.inj heq).1 hc
        · rfl
      · rw [List.head?_cons]
        exact fun heq => hc (Option.some.inj heq)

theorem flagLetters_of_no_cluster (h : arg = "-" ∨ arg.toList.head? ≠ some '-') :
    flagLetters arg = none := by
  rcases flagLetters_cases arg with ⟨hnone, -⟩ | ⟨letters, hne, rfl⟩
  · exact hnone
  · rw [cluster, String.toList_ofList] at h
    rcases h with heq | hhead
    · rw [← String.toList_inj, String.toList_ofList] at heq
      exact absurd (List.cons.inj heq).2 hne
    · exact absurd rfl hhead

theorem cluster_eq_dashes_iff : cluster letters = "--" ↔ letters = ['-'] := by
  rw [← String.toList_inj, cluster, String.toList_ofList]
  exact List.cons_inj_right '-'

/-- Two dashes are no cluster. -/
theorem IsCluster.ne_dashes (hknown : '-' ∉ known) (h : IsCluster known letters) :
    cluster letters ≠ "--" := by
  rw [Ne, cluster_eq_dashes_iff]
  rintro rfl
  exact hknown (h.2 '-' List.mem_cons_self)

/-! ## A run of clusters -/

/-- A cluster adds its letters in front of all others. -/
theorem splitFlags_cluster (hknown : '-' ∉ known) (h : IsCluster known letters)
    (rest : List String) :
    splitFlags known (cluster letters :: rest) =
      (splitFlags known rest).map fun answer => (letters ++ answer.1, answer.2) := by
  have hall : (letters.find? fun c => !known.contains c) = none := by simpa using h.2
  have hdashes : (cluster letters == "--") = false := beq_eq_false_iff_ne.mpr (h.ne_dashes hknown)
  simp only [splitFlags, hdashes, flagLetters_cluster h.1, hall, Bool.false_eq_true, if_false]
  cases splitFlags known rest with
  | ok answer => rfl
  | error e => rfl

theorem splitFlags_clusters (hknown : '-' ∉ known)
    (h : ∀ letters ∈ clusters, IsCluster known letters) (rest : List String) :
    splitFlags known (clusters.map cluster ++ rest) =
      (splitFlags known rest).map fun answer => (clusters.flatten ++ answer.1, answer.2) := by
  induction clusters with
  | nil =>
    rw [List.map_nil, List.nil_append]
    cases splitFlags known rest with
    | ok answer => rfl
    | error e => rfl
  | cons letters clusters ih =>
    rw [List.forall_mem_cons] at h
    rw [List.map_cons, List.cons_append, splitFlags_cluster hknown h.1, ih h.2]
    cases splitFlags known rest with
    | ok answer => simp [Except.map]
    | error e => rfl

theorem splitFlags_follows (h : Follows rest operands) :
    splitFlags known rest = .ok ([], operands) := by
  cases h with
  | nothing => rfl
  | dashes => simp [splitFlags]
  | @operand arg harg rest =>
    have hdashes : (arg == "--") = false := by
      rw [beq_eq_false_iff_ne]
      rintro rfl
      exact absurd harg (by decide)
    simp [splitFlags, hdashes, flagLetters_of_no_cluster harg]

theorem splitFlags_unknown (hdashes : cluster (front ++ letter :: back) ≠ "--")
    (hfront : ∀ c ∈ front, c ∈ known) (hletter : letter ∉ known) (more : List String) :
    splitFlags known (cluster (front ++ letter :: back) :: more) =
      .error (.unknownFlag letter) := by
  have hfind : ((front ++ letter :: back).find? fun c => !known.contains c) = some letter := by
    rw [List.find?_append, List.find?_eq_none.mpr (by simpa using hfront)]
    simp [hletter]
  have hne : front ++ letter :: back ≠ [] := by simp
  simp only [splitFlags, beq_eq_false_iff_ne.mpr hdashes, flagLetters_cluster hne, hfind,
    Bool.false_eq_true, if_false]

/-! ## All arguments -/

theorem exists_unknown (h : ¬ ∀ c ∈ letters, c ∈ known) :
    ∃ front letter back, letters = front ++ letter :: back ∧ (∀ c ∈ front, c ∈ known) ∧
      letter ∉ known := by
  induction letters with
  | nil => exact absurd (by simp) h
  | cons c letters ih =>
    by_cases hc : c ∈ known
    · obtain ⟨front, letter, back, rfl, hfront, hletter⟩ :=
        ih fun hall => h (List.forall_mem_cons.mpr ⟨hc, hall⟩)
      exact ⟨c :: front, letter, back, rfl, List.forall_mem_cons.mpr ⟨hc, hfront⟩, hletter⟩
    · exact ⟨[], c, letters, rfl, by simp, hc⟩

/-- There is nothing else that arguments can be. -/
theorem exists_clusters (known : List Char) (args : List String) :
    (∃ flags operands, Flagged known args flags operands) ∨
      ∃ letter, Refused known args letter := by
  induction args with
  | nil => exact .inl ⟨[], [], [], [], by simp, rfl, rfl, .nothing⟩
  | cons arg rest ih =>
    by_cases hdashes : arg = "--"
    · subst hdashes
      exact .inl ⟨[], rest, [], "--" :: rest, by simp, rfl, rfl, .dashes rest⟩
    rcases flagLetters_cases arg with ⟨-, harg⟩ | ⟨letters, hne, rfl⟩
    · exact .inl ⟨[], arg :: rest, [], arg :: rest, by simp, rfl, rfl, .operand harg rest⟩
    by_cases hall : ∀ c ∈ letters, c ∈ known
    · rcases ih with ⟨flags, operands, clusters, others, hclusters, rfl, rfl, hothers⟩ |
        ⟨letter, clusters, front, back, more, hclusters, rfl, hrefused⟩
      · exact .inl ⟨_, operands, letters :: clusters, others,
          List.forall_mem_cons.mpr ⟨⟨hne, hall⟩, hclusters⟩, rfl, rfl, hothers⟩
      · exact .inr ⟨letter, letters :: clusters, front, back, more,
          List.forall_mem_cons.mpr ⟨⟨hne, hall⟩, hclusters⟩, rfl, hrefused⟩
    · obtain ⟨front, letter, back, rfl, hfront, hletter⟩ := exists_unknown hall
      exact .inr ⟨letter, [], front, back, rest, by simp, rfl, hdashes, hfront, hletter⟩

theorem splitFlags_of_flagged {flags : List Char} (hknown : '-' ∉ known)
    (h : Flagged known args flags operands) : splitFlags known args = .ok (flags, operands) := by
  obtain ⟨clusters, rest, hclusters, rfl, rfl, hrest⟩ := h
  rw [splitFlags_clusters hknown hclusters, splitFlags_follows hrest, Except.map, List.append_nil]

theorem splitFlags_of_refused (hknown : '-' ∉ known) (h : Refused known args letter) :
    splitFlags known args = .error (.unknownFlag letter) := by
  obtain ⟨clusters, front, back, more, hclusters, rfl, hdashes, hfront, hletter⟩ := h
  rw [splitFlags_clusters hknown hclusters, splitFlags_unknown hdashes hfront hletter, Except.map]

theorem splitFlags_ok_iff {flags : List Char} (hknown : '-' ∉ known) :
    splitFlags known args = .ok (flags, operands) ↔ Flagged known args flags operands := by
  refine ⟨fun h => ?_, splitFlags_of_flagged hknown⟩
  rcases exists_clusters known args with ⟨flags', operands', hflagged⟩ | ⟨letter, hrefused⟩
  · rw [splitFlags_of_flagged hknown hflagged, Except.ok.injEq, Prod.mk.injEq] at h
    exact h.1 ▸ h.2 ▸ hflagged
  · rw [splitFlags_of_refused hknown hrefused] at h
    cases h

theorem splitFlags_error_iff {e : UsageError} (hknown : '-' ∉ known) :
    splitFlags known args = .error e ↔
      ∃ letter, Refused known args letter ∧ e = .unknownFlag letter := by
  constructor
  · intro h
    rcases exists_clusters known args with ⟨flags, operands, hflagged⟩ | ⟨letter, hrefused⟩
    · rw [splitFlags_of_flagged hknown hflagged] at h
      cases h
    · rw [splitFlags_of_refused hknown hrefused] at h
      exact ⟨letter, hrefused, (Except.error.inj h).symm⟩
  · rintro ⟨letter, hrefused, rfl⟩
    exact splitFlags_of_refused hknown hrefused

end

/-- The flags are the letters of the clusters in front, in their order, and the operands are all
that comes behind them, without two dashes that end the flags. In every other case the first letter that
is not known is the error. -/
theorem splitFlags_iff {known : List Char} (hknown : '-' ∉ known) (args : List String) :
    (∀ flags operands,
        splitFlags known args = .ok (flags, operands) ↔ Flagged known args flags operands) ∧
      ((∃ e, splitFlags known args = .error e) ↔
        ¬ ∃ flags operands, Flagged known args flags operands) ∧
      ∀ e, splitFlags known args = .error e ↔
        ∃ letter, Refused known args letter ∧ e = .unknownFlag letter := by
  refine ⟨fun _ _ => splitFlags_ok_iff hknown, ?_, fun _ => splitFlags_error_iff hknown⟩
  simp only [← splitFlags_ok_iff hknown]
  cases splitFlags known args with
  | ok answer => exact iff_of_false nofun fun h => h ⟨answer.1, answer.2, rfl⟩
  | error e => exact iff_of_true ⟨e, rfl⟩ nofun

/-- Behind two dashes nothing is a flag. -/
theorem splitFlags_iff_dashes :
    '-' ∉ ['r', 'f'] ∧
      splitFlags ['r', 'f'] ["-rf", "-f", "--", "-z", "--"] = .ok (['r', 'f', 'f'], ["-z", "--"]) ∧
      splitFlags ['r', 'f'] ["-r", "-fz"] = .error (.unknownFlag 'z') := by
  have hknown : '-' ∉ ['r', 'f'] := by decide
  refine ⟨hknown, ((splitFlags_iff hknown _).1 _ _).mpr ?_,
    ((splitFlags_iff hknown _).2.2 _).mpr ?_⟩
  · exact ⟨[['r', 'f'], ['f']], ["--", "-z", "--"], by simp [IsCluster], rfl, rfl, .dashes _⟩
  · exact ⟨'z', ⟨[['r']], ['f'], [], [], by simp [IsCluster], rfl, by decide, by simp, by decide⟩,
      rfl⟩

end Runnel
