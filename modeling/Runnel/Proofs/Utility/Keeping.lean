import Runnel.Proofs.Host.Keeping
import Runnel.Utility.Standard

/-!
# Runnel.Proofs.Utility.Keeping

The built-in commands keep a sound disk sound, whatever they are asked for and wherever they stop.

* `Files.sound_eachOperand`, `Files.sound_eachSource`: commands that work through operands up to the
  first that fails.
* `standardHandlers_keep`: all commands.
-/

namespace Runnel

/-- A call leaves a sound disk sound. -/
def Handler.Keeps : Handler → Prop
  | .call c => ∀ i d, d.Sound → (c.run i d).2.Sound
  | .generator _ => True

namespace Handler

theorem keeps_pure (run : Invocation → Outcome) : (pure run).Keeps :=
  fun _ _ hd => hd

theorem keeps_reading (run : Invocation → Disk → Outcome) : (reading run).Keeps :=
  fun _ _ hd => hd

end Handler

namespace Files

variable {d : Disk} {i : Invocation}

theorem sound_attempt {α : Type} {request : Disk.Change α} (doing : String)
    (h : request.2.Sound) : (attempt doing request).2.Sound := by
  obtain ⟨e | a, d⟩ := request
  · exact h
  · exact h

theorem sound_eachOperand {work : Disk → String → Option Outcome × Disk}
    (h : ∀ d operand, d.Sound → (work d operand).2.Sound) (hd : d.Sound) (operands : List String) :
    (eachOperand work d operands).2.Sound := by
  induction operands generalizing d with
  | nil => exact hd
  | cons operand rest ih =>
    have hfirst := h d operand hd
    rw [eachOperand]
    split
    · rename_i heq
      rwa [heq] at hfirst
    · rename_i heq
      rw [heq] at hfirst
      exact ih hfirst

theorem sound_eachSource {work : Disk → (source place : String) → Option Outcome × Disk}
    (h : ∀ d source place, d.Sound → (work d source place).2.Sound) (hd : d.Sound)
    (operands : List String) : (eachSource i d operands work).2.Sound := by
  unfold eachSource
  split
  · exact hd
  · simp only
    split
    · exact hd
    · refine sound_eachOperand (fun d' source hd' => ?_) hd _
      split
      · exact hd'
      · split
        · exact hd'
        · exact h d' source _ hd'

theorem keeps_mkdir : mkdirHandler.Keeps := by
  intro i d hd
  simp only
  split
  · exact hd
  · exact hd
  · refine sound_eachOperand (fun d' operand hd' => sound_attempt _ ?_) hd _
    split
    · exact hd'.makeDirectories _
    · exact hd'.makeDirectory _

theorem keeps_touch : touchHandler.Keeps := by
  intro i d hd
  simp only
  split
  · exact hd
  · exact sound_eachOperand
      (fun d' operand hd' => sound_attempt _ (hd'.openOutput _ _ _)) hd _

theorem sound_removeOperand (hd : d.Sound) (recursive force : Bool) (operand : String) :
    (removeOperand i recursive force d operand).2.Sound := by
  unfold removeOperand
  simp only
  split
  · split
    · exact hd
    · exact hd
  · split
    · exact sound_attempt _ (hd.removeFile _)
    · split
      · exact sound_attempt _ (hd.removeTree _)
      · exact hd

theorem keeps_rm : rmHandler.Keeps := by
  intro i d hd
  simp only
  split
  · exact hd
  · split
    · exact hd
    · exact sound_eachOperand (fun _ operand hd' => sound_removeOperand hd' _ _ operand) hd _

theorem sound_copySource (hd : d.Sound) (recursive : Bool) (source place : String) :
    (copySource i recursive d source place).2.Sound := by
  have hcopied := hd.copyTree (i.resolve source) place
  unfold copySource
  simp only
  split
  · split
    · exact hd
    · split
      · rename_i heq
        rwa [heq] at hcopied
      · rename_i heq
        rwa [heq] at hcopied
  · exact sound_attempt _ (hd.copyFile _ _)

theorem keeps_cp : cpHandler.Keeps := by
  intro i d hd
  simp only
  split
  · exact hd
  · exact sound_eachSource (fun _ source place hd' => sound_copySource hd' _ source place) hd _

theorem keeps_mv : mvHandler.Keeps := fun _ _ hd =>
  sound_eachSource (fun _ _ _ hd' => sound_attempt _ (hd'.rename _ _)) hd _

end Files

/-- No built-in command breaks the disk. -/
theorem standardHandlers_keep : ∀ e ∈ standardHandlers, e.2.Keeps := by
  have hhead : Excerpt.headHandler.Keeps := fun _ _ hd => hd
  simp only [standardHandlers, List.forall_mem_cons]
  exact ⟨Handler.keeps_pure _, Handler.keeps_reading _, Handler.keeps_pure _,
    Handler.keeps_reading _, Handler.keeps_pure _, Handler.keeps_reading _, Files.keeps_cp,
    Files.keeps_mv, Files.keeps_rm, Files.keeps_mkdir, Files.keeps_touch, Handler.keeps_pure _,
    Handler.keeps_pure _, Handler.keeps_pure _, Handler.keeps_reading _, hhead,
    Handler.keeps_reading _, Handler.keeps_pure _, trivial, Handler.keeps_pure _,
    Handler.keeps_pure _, Handler.keeps_pure _, Handler.keeps_reading _, Handler.keeps_reading _,
    List.forall_mem_nil _⟩

end Runnel
