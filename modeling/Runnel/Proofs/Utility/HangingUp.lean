import Runnel.Flow.Activity
import Runnel.Proofs.Flow.Gathering
import Runnel.Utility.Excerpt

/-!
# Runnel.Proofs.Utility.HangingUp

The command for the first lines stops reading once it has seen enough newlines, wherever the chunk
ends that brought the last one of them. What it shows is the same as if it had read on.

* `Text.decodeLossy_append_newline`: a newline always stands between two characters, so what follows
  it does not matter to the text before it.
* `Text.head_decodeLossy_append`: the first lines of bytes that have so many newlines.
* `Excerpt.call_of_reading`: the command after it has read what it asks for, and after it has read
  everything.
-/

namespace Runnel

namespace Text

/-! ## Decoding up to a newline -/

namespace Decoder

/-- Only bytes that are not ASCII continue a character. -/
def Sound (d : Decoder) : Prop :=
  ∀ p ∈ d.pending, 0x80 ≤ p.least

/-- Only bytes that begin no character continue one. -/
def Narrow (d : Decoder) : Prop :=
  ∀ p ∈ d.pending, 0x80 ≤ p.least ∧ p.greatest ≤ 0xBF

theorem narrow_begin (output : List Char) (b : UInt8) : Narrow (begin output b) := by
  unfold begin start Narrow
  grind

theorem narrow_feed (d : Decoder) (b : UInt8) : (d.feed b).Narrow := by
  unfold feed
  split
  · exact narrow_begin _ b
  · split
    · split
      · nofun
      · intro p hp
        cases hp
        exact ⟨Nat.le_refl _, Nat.le_refl _⟩
    · exact narrow_begin _ b

theorem narrow_foldl {d : Decoder} (hd : d.Narrow) (bytes : Bytes) :
    (bytes.foldl feed d).Narrow := by
  induction bytes generalizing d with
  | nil => exact hd
  | cons b bytes ih => exact ih (narrow_feed d b)

theorem narrow_empty : Narrow .empty := by
  nofun

theorem sound_foldl (bytes : Bytes) : (bytes.foldl feed .empty).Sound :=
  fun p hp => (narrow_foldl narrow_empty bytes p hp).1

theorem begin_append (output before : List Char) (b : UInt8) :
    begin (output ++ before) b = ⟨(begin output b).pending, (begin output b).output ++ before⟩ := by
  unfold begin
  split <;> rfl

/-- What was read before is left alone. -/
theorem feed_append (p : Option Partial) (output before : List Char) (b : UInt8) :
    feed ⟨p, output ++ before⟩ b =
      ⟨(feed ⟨p, output⟩ b).pending, (feed ⟨p, output⟩ b).output ++ before⟩ := by
  unfold feed
  cases p with
  | none => exact begin_append output before b
  | some p =>
    simp only
    split
    · split <;> rfl
    · exact begin_append (replacement :: output) before b

theorem foldl_feed_append (p : Option Partial) (output before : List Char) (bytes : Bytes) :
    bytes.foldl feed ⟨p, output ++ before⟩ =
      ⟨(bytes.foldl feed ⟨p, output⟩).pending,
        (bytes.foldl feed ⟨p, output⟩).output ++ before⟩ := by
  induction bytes generalizing p output with
  | nil => rfl
  | cons b rest ih =>
    rw [List.foldl_cons, feed_append, ih]
    rfl

/-- What is read after a newline comes behind what was read before it. -/
theorem finish_append (before : List Char) (bytes : Bytes) :
    (bytes.foldl feed ⟨none, before⟩).finish =
      before.reverse ++ (bytes.foldl feed .empty).finish := by
  have h := foldl_feed_append none [] before bytes
  rw [List.nil_append] at h
  rw [h]
  unfold finish empty
  cases (bytes.foldl feed ⟨none, []⟩).pending <;> simp

/-- A newline never belongs to another character. -/
theorem feed_newline {d : Decoder} (h : d.Sound) :
    ∃ output, d.feed 10 = ⟨none, '\n' :: output⟩ := by
  obtain ⟨p, output⟩ := d
  cases p with
  | none => exact ⟨output, rfl⟩
  | some p =>
    have hleast : ¬ p.least ≤ 10 := fun hle => by
      have := UInt8.le_trans (h p rfl) hle
      exact absurd this (by decide)
    refine ⟨replacement :: output, ?_⟩
    simp only [feed, hleast, decide_false, Bool.false_and, Bool.false_eq_true, if_false]
    rfl

end Decoder

/-- The characters up to a newline are the same whatever comes behind it. -/
theorem decodeLossy_append_newline (front : Bytes) :
    ∃ line : List Char, ∀ rest : Bytes, (decodeLossy (front ++ 10 :: rest)).toList =
      line ++ '\n' :: (decodeLossy rest).toList := by
  obtain ⟨output, houtput⟩ := Decoder.feed_newline (Decoder.sound_foldl front)
  refine ⟨output.reverse, fun rest => ?_⟩
  simp only [decodeLossy, String.toList_ofList]
  rw [List.foldl_append, List.foldl_cons, houtput, Decoder.finish_append]
  simp

/-! ## The first lines -/

theorem segmentsFrom_append_newline (current line rest : List Char) :
    segmentsFrom current (line ++ '\n' :: rest) =
      segmentsFrom current (line ++ ['\n']) ++ segments rest := by
  induction line generalizing current with
  | nil => rfl
  | cons c line ih =>
    simp only [List.cons_append, segmentsFrom]
    split
    · rw [ih, List.cons_append]
    · rw [ih]

theorem segmentsFrom_newline_ne_nil (current line : List Char) :
    segmentsFrom current (line ++ ['\n']) ≠ [] := by
  induction line generalizing current with
  | nil => nofun
  | cons c line ih =>
    simp only [List.cons_append, segmentsFrom]
    split
    · nofun
    · exact ih _

/-- If there are enough newlines, the first lines do not depend on what comes after them. -/
theorem take_segments_append {n : Nat} {front : Bytes} (h : n ≤ front.count 10) (rest : Bytes) :
    (segments (decodeLossy (front ++ rest)).toList).take n =
      (segments (decodeLossy front).toList).take n := by
  induction hk : front.count 10 generalizing front n with
  | zero =>
    obtain rfl : n = 0 := by omega
    rfl
  | succ k ih =>
    have hmem : (10 : UInt8) ∈ front := List.count_pos_iff.1 (by omega)
    obtain ⟨u, v, rfl, hu⟩ := List.eq_append_cons_of_mem hmem
    obtain ⟨line, hline⟩ := decodeLossy_append_newline u
    have hv : v.count 10 = k := by
      simpa [List.count_append, List.count_eq_zero_of_not_mem hu] using hk
    have hpos : 0 < (segmentsFrom [] (line ++ ['\n'])).length :=
      List.length_pos_iff.2 (segmentsFrom_newline_ne_nil [] line)
    rw [List.append_assoc, List.cons_append, hline, hline]
    simp only [segments]
    rw [segmentsFrom_append_newline [] line (decodeLossy (v ++ rest)).toList,
      segmentsFrom_append_newline [] line (decodeLossy v).toList, List.take_append,
      List.take_append]
    congr 1
    exact ih (by omega) hv

theorem head_decodeLossy_append {n : Nat} {front : Bytes} (h : n ≤ front.count 10)
    (rest : Bytes) : head (decodeLossy (front ++ rest)) n = head (decodeLossy front) n := by
  rw [head, head, take_segments_append h]

end Text

namespace Excerpt

/-- The command asks for so many lines only if it shows so many lines of its input. -/
theorem run_of_demand (i : Invocation) {n : Nat} (h : headDemand i.args = .lines n) (d : Disk) :
    run Text.head i d = .done (.ofText (Text.head i.stdin n)) := by
  unfold headDemand at h
  unfold run
  cases hcount : lineCount defaultLines i.args with
  | error e =>
    rw [hcount] at h
    cases h
  | ok p =>
    obtain ⟨k, operands⟩ := p
    rw [hcount] at h
    simp only at h ⊢
    split at h
    · rename_i hreads
      cases h
      simp only [source, hreads, if_true]
    · cases h

/-- The command does the same with the input that it asks for as with all of its input, however the
input was cut into chunks, and however its turns fell while it was reading. -/
theorem call_of_reading {c : Call} {i : Invocation} {lines : Option Nat} {id id' : ChannelId}
    {chunks : List Bytes} {early whole : Bytes} (hc : headHandler = .call c)
    (hlines : Activity.demanded headHandler i.args = some lines)
    (hearly : Reading id lines chunks [] early) (hwhole : Reading id' none chunks [] whole)
    (d : Disk) :
    c.run { i with stdin := Text.decodeLossy early } d =
      c.run { i with stdin := Text.decodeLossy whole } d := by
  obtain rfl := hearly.eq_readThrough
  obtain rfl := hwhole.eq_readThrough
  cases hc
  simp only [Activity.demanded, headHandler] at hlines
  rw [Machine.readThrough_none, List.nil_append]
  split at hlines
  · cases hlines
    rw [Machine.readThrough_none, List.nil_append]
  · rename_i n hdemand
    cases hlines
    -- what the command has not read comes after as many newlines as it shows lines
    obtain ⟨rest, hsplit, hend⟩ := Machine.readThrough_split (some n) [] chunks
    rw [List.nil_append] at hsplit
    have hrun : ∀ bytes, run Text.head { i with stdin := Text.decodeLossy bytes } d =
        .done (.ofText (Text.head (Text.decodeLossy bytes) n)) :=
      fun bytes => run_of_demand { i with stdin := Text.decodeLossy bytes } hdemand d
    simp only [hrun]
    rw [hsplit]
    rcases hend with henough | rfl
    · rw [Text.head_decodeLossy_append (by simpa [Machine.isEnough] using henough)]
    · rw [List.append_nil]
  · cases hlines

/-- A reader of one line hangs up in the middle of a character. -/
theorem call_of_reading_cut :
    Activity.demanded headHandler ["-n", "1"] = some (some 1) ∧
    Reading 0 (some 1) [[97, 10, 98, 0xC3], [0xA9, 10]] [] [97, 10, 98, 0xC3] ∧
    Reading 0 none [[97, 10, 98, 0xC3], [0xA9, 10]] [] [97, 10, 98, 0xC3, 0xA9, 10] ∧
    (run Text.head ⟨"head", ["-n", "1"], Text.decodeLossy [97, 10, 98, 0xC3], "/", [], 0⟩ .empty,
      Disk.empty) =
    (run Text.head
      ⟨"head", ["-n", "1"], Text.decodeLossy [97, 10, 98, 0xC3, 0xA9, 10], "/", [], 0⟩ .empty,
      Disk.empty) := by
  have hdemand : Activity.demanded headHandler ["-n", "1"] = some (some 1) := by decide +kernel
  have hearly : Reading 0 (some 1) [[97, 10, 98, 0xC3], [0xA9, 10]] [] [97, 10, 98, 0xC3] :=
    reading_iff.2 (by decide)
  have hwhole :
      Reading 0 none [[97, 10, 98, 0xC3], [0xA9, 10]] [] [97, 10, 98, 0xC3, 0xA9, 10] :=
    reading_iff.2 (by decide)
  exact ⟨hdemand, hearly, hwhole,
    call_of_reading (i := ⟨"head", ["-n", "1"], "", "/", [], 0⟩) rfl hdemand hearly hwhole .empty⟩

end Excerpt
end Runnel
