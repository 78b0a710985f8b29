import Linux012.Exec.Overrun
import Linux012.Exec.Start

/-!
# The arguments of a new image

What has been copied is what the new image finds.
-/

namespace Linux012.Exec

open Lib (Holds run_bind_of_ok)
open Machine

section Copied

variable {w : World} {m : Machine} {filename argv envp : UInt32} {path : List UInt8}
variable {args env : List (List UInt8)} {inode : Nat} {block : List UInt8}

theorem ArgumentsAt.noEnd {arrays strings : List UInt8} (arguments : ArgumentsAt arrays strings argv args)
    {string : List UInt8} (mem : string ∈ args) : 0 ∉ string := by
  obtain ⟨i, inside, isString⟩ := List.getElem_of_mem mem
  obtain ⟨_, _, _, stringAt⟩ := arguments i inside
  rw [← isString]
  exact stringAt.noEnd

/-- What has been placed lies in the argument area up to its end. -/
theorem Placed.holds {pages : Nat} {m' : Machine} {bytes : List UInt8} {q : UInt32}
    (all : Placed pages 131068 m bytes m') (low : q.toNat = 131068 - bytes.length) :
    Holds m'.areaByte q.toNat bytes ∧ q.toNat + bytes.length = 131068 ∧
      m'.Area pages q.toNat := by
  have le := all.le
  refine ⟨?_, by omega, by rw [low]; exact all.area⟩
  rw [all.bytes, low]
  exact Lib.holds_overwrite

/-- A program with arguments that fit is started, and its stack pointer is at the tables for
them. -/
theorem layout_doExecve (call : Call w m filename argv envp path args env)
    (found : w.namei path = some inode) (isImage : openImage m.task (w.inode inode) = .ok block)
    (notScript : isScript block = false)
    (accepted : (readHeader block).Accepted (w.inode inode).size)
    (fits : (packed args).length + (packed env).length ≤ 131067) (memory : 256 ≤ m.free) :
    ∃ m', (doExecve w filename argv envp).run m = .ok (0, m') ∧
      Layout (m'.newByte w) m'.frame.esp.toNat args env := by
  have ended := callsEnd_copyPlain (w := w) (m := opened m inode) filename rfl call.fs
    call.args call.env
  have ran : (doExecve w filename argv envp).run m =
      (copyPlain w filename argv envp args.length env.length >>= fun result =>
        if result.1 = 0 then execError2 inode enomem
        else startImage w inode (readHeader block) result.1 result.2 env.length).run
        (opened m inode) := by
    rw [run_doExecve call, found]
    change (startFile w filename argv envp args.length env.length inode).run (opened m inode) = _
    rw [run_startFile, isImage]
    simp only [notScript, checkImage]
    rw [if_neg (by decide), if_neg (not_not_intro accepted)]
  have lens : ((plainCalls args env).map List.length).sum ≤ 131067 := by
    simp only [plainCalls, List.map_cons, List.map_nil, List.sum_cons, List.sum_nil]
    omega
  rw [ran]
  generalize isCopied : (copyPlain w filename argv envp args.length env.length).run
    (opened m inode) = copied at ended
  cases ended with
  | overrun crosses many =>
      refine absurd crosses (not_crosses_of_sum_le ?_)
      rw [toNat_initialP]
      omega
  | full stops area rest same =>
      rcases stops with few | ⟨_, used⟩
      · change m.free < 32 at few
        omega
      · rw [toNat_initialP] at used
        omega
  | placed positive all low same =>
      rename_i q m'
      have blocks : (plainCalls args env).reverse.flatten = packed (args ++ env) := by
        simp [plainCalls]
      rw [toNat_initialP, blocks] at all low
      obtain ⟨lies, whole, area⟩ := all.holds low
      have noEnd : ∀ string ∈ args ++ env, 0 ∉ string := by
        intro string mem
        rcases List.mem_append.mp mem with mem | mem
        · exact call.args.arguments.noEnd mem
        · exact call.env.arguments.noEnd mem
      have started : Starts w inode (readHeader block) args env (m'.free < 162)
          ((startImage w inode (readHeader block) q args.length env.length).run m') :=
        starts_startImage area lies (by omega) noEnd
      rw [run_bind_of_ok isCopied]
      simp only [if_neg positive]
      rcases started with ⟨m'', started, image⟩ | ⟨_, few⟩
      · exact ⟨m'', started, image.layout⟩
      · have total := area.total
        have le := pagesFor_le q.toNat
        change m'.free + pagesFor q.toNat = m.free at total
        change pagesFor q.toNat ≤ 32 at le
        omega

theorem layout_doExecve_oneString :
    ∃ m', (doExecve (oneStringWorld 3 three_le_200000) 12 4 0).run (startMachine 300) =
        .ok (0, m') ∧
      Layout (m'.newByte (oneStringWorld 3 three_le_200000)) m'.frame.esp.toNat
        [List.replicate 3 1] [] :=
  layout_doExecve (call_oneString (by omega) 300) (rfl : _ = some 1) openImage_program (by decide)
    (by decide) (by decide) (by decide)

end Copied

end Linux012.Exec
