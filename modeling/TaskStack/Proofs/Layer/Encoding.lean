import Mathlib
import TaskStack.Layer.Mpi

/-!
# What an engine can tell of a parallel run

The engine gets an implementation type, a signature, ten texts and a marker. The type says whether
there is a program of its own, so the mark for a program that was not given confuses nothing; and
the marker says how many processes there are, and whether that is a number or a reference. All that
gets lost is what the marks stand for: a text that is the mark itself, a number that is `-1`, and a
layout of the parameter without a name.

**Theorem (`alike_iff`).** Two layers come to the engine as the same exactly when they are alike:
the same but for what the marks stand for.

* `MpiArgs.encode_eq_iff`: the ten texts.
* `MpiArgs.number_eq_iff`: numbers.
-/

namespace TaskStack

namespace MpiArgs

/-- A layout as its texts show it. A missing one is that of a parameter without a name, with no
numbers, and a missing number is `-1`. -/
def shownLayout (l : Option CollectionLayout) : String × Int64 × Int64 × Int64 :=
  let l := l.getD ⟨"", none, none, none⟩
  (l.param, l.blockCount.getD (-1), l.blockLength.getD (-1), l.stride.getD (-1))

theorem number_eq_repr (n : Option Int64) : number n = (n.getD (-1)).toInt.repr := by
  cases n <;> rfl

/-- Two numbers have the same text exactly when they are the same, once `-1` stands for a missing
one. -/
theorem number_eq_iff {n n' : Option Int64} :
    number n = number n' ↔ n.getD (-1) = n'.getD (-1) := by
  rw [number_eq_repr, number_eq_repr, Int.repr_inj, Int64.toInt_inj]

/-- **The ten texts** show every part, once the marks are read for what was not given. -/
theorem encode_eq_iff {a a' : MpiArgs} : a.encode = a'.encode ↔
    a.binary.getD unassigned = a'.binary.getD unassigned ∧
    a.workingDir.getD unassigned = a'.workingDir.getD unassigned ∧
    a.runner = a'.runner ∧ a.flags.getD unassigned = a'.flags.getD unassigned ∧
    a.scaleByCu = a'.scaleByCu ∧ a.failByExitValue = a'.failByExitValue ∧
    shownLayout a.layout = shownLayout a'.layout := by
  simp only [encode, List.cons.injEq, and_true, shownLayout, Prod.mk.injEq, number_eq_iff]

end MpiArgs

namespace Processes

theorem value_count_eq_int_iff {n : UInt32} {k : Int64} :
    (count n).value = .int k ↔ k.toInt = n.toNat := by
  rw [value, Value.int_inj, ← Int64.toInt_inj,
    Int64.toInt_ofNat_of_lt (Nat.lt_trans n.toNat_lt (by decide)), eq_comm]

/-- The marker tells a number from a reference. -/
theorem value_injective {p p' : Processes} (h : p.value = p'.value) : p = p' := by
  cases p with
  | count n =>
    cases p' with
    | count n' =>
      have hn := value_count_eq_int_iff.1 h
      have hn' := value_count_eq_int_iff.1 (rfl : (count n').value = _)
      rw [UInt32.toNat_inj.1 (Int.ofNat_inj.1 (hn.symm.trans hn'))]
    | dynamic s => cases h
  | dynamic s =>
    cases p' with
    | count n => cases h
    | dynamic s' =>
      cases h
      rfl

end Processes

namespace MpiParallel

variable {m m' : MpiParallel}

/-- Layers that are the same but for what the marks stand for. -/
structure Alike (m m' : MpiParallel) : Prop where
  runner : m.runner = m'.runner
  binary : m.binary = m'.binary
  processes : m.processes = m'.processes
  scaleByCu : m.scaleByCu = m'.scaleByCu
  failByExitValue : m.failByExitValue = m'.failByExitValue
  workingDir : m.workingDir.getD "[unassigned]" = m'.workingDir.getD "[unassigned]"
  flags : m.flags.getD "[unassigned]" = m'.flags.getD "[unassigned]"
  layout : MpiArgs.shownLayout m.layout = MpiArgs.shownLayout m'.layout

/-- With the type known, the mark for a program that was not given confuses nothing. -/
theorem binary_eq (htype : m.implementationType = m'.implementationType)
    (htext : m.binary.getD MpiArgs.unassigned = m'.binary.getD MpiArgs.unassigned) :
    m.binary = m'.binary := by
  unfold implementationType at htype
  cases hb : m.binary with
  | none =>
    cases hb' : m'.binary with
    | none => rfl
    | some b' => simp [hb, hb'] at htype
  | some b =>
    cases hb' : m'.binary with
    | none => simp [hb, hb'] at htype
    | some b' => simpa [hb, hb'] using htext

/-- **What the engine can tell of a parallel run.** Two layers come to it as the same exactly when
they are alike. It always gets ten texts. -/
theorem alike_iff (m m' : MpiParallel) :
    (m.implementationType = m'.implementationType ∧
        m.implementationSignature = m'.implementationSignature ∧
        m.implementationArgs = m'.implementationArgs ∧ m.markers = m'.markers ↔ m.Alike m') ∧
      m.implementationArgs.length = 10 := by
  refine ⟨⟨?_, ?_⟩, rfl⟩
  · rintro ⟨htype, -, hargs, hmarkers⟩
    obtain ⟨hbinary, hdir, hrunner, hflags, hscale, hfail, hlayout⟩ := MpiArgs.encode_eq_iff.1 hargs
    have hprocesses : m.processes.value = m'.processes.value := by
      simpa [markers] using hmarkers
    exact ⟨hrunner, binary_eq htype hbinary, Processes.value_injective hprocesses, hscale, hfail,
      hdir, hflags, hlayout⟩
  · intro h
    refine ⟨?_, ?_, MpiArgs.encode_eq_iff.2 ⟨?_, h.workingDir, h.runner, h.flags, h.scaleByCu,
      h.failByExitValue, h.layout⟩, ?_⟩
    · rw [implementationType, implementationType, h.binary]
    · rw [implementationSignature, implementationSignature, h.binary, h.processes]
    · exact congrArg (·.getD MpiArgs.unassigned) h.binary
    · rw [markers, markers, h.processes]

/-- A number of processes is not its text, and a mark is not told from what it stands for. -/
example : ¬ Alike { runner := "mpirun", processes := .count 2 }
      { runner := "mpirun", processes := .dynamic "2" } ∧
    Alike
      { runner := "mpirun", flags := some "[unassigned]", layout := some ⟨"", none, none, none⟩ }
      { runner := "mpirun" } :=
  ⟨fun h => (nomatch h.processes), ⟨rfl, rfl, rfl, rfl, rfl, rfl, rfl, rfl⟩⟩

end MpiParallel
end TaskStack
