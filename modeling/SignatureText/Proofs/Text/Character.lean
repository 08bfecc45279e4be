/-
**Lower case is settled, and a text has one core.**

A letter in lower case stays as it is when it is put in lower case again. The table of runs is
checked pair by pair: no run maps to a code point that a run covers.

* `Text.lowerCase_cases` — the three ways a character goes to lower case: U+0130, a run, itself.
* `Text.CaseRun.misses` — a run that maps to nothing another one covers, read off their bounds and
  their steps; `Text.all_caseRuns_miss` is the check of the table.
* `Text.exists_lowerCase_eq_cons` — **so lower case is settled**: it has a first character, and that
  character is its own lower case.

A text that is not white space alone is white space, then a core that begins and ends with other
characters, then white space. There is one way to read it so, and taking away the white space at the
ends gives that core.

* `Text.IsCore` — the reading of a text as its core with white space around it.
* `Text.isCore_trim` — a text that is not all white space has a core, namely what is left of it.
* `Text.IsCore.trim_eq` — and it has no other: the first character that is no white space begins the
  core, the last one ends it, and white space inside plays no part.
-/

import Mathlib.Data.List.DropRight
import SignatureText.Text.Character

namespace SignatureText.Text

/-! ### Lower case of one character -/

/-- What a run maps to is a character. -/
theorem all_caseRuns_valid : ∀ run ∈ caseRuns,
    run.lowered + (run.last - run.first) < 0xD800 ∨
      0xDFFF < run.lowered ∧ run.lowered + (run.last - run.first) < 0x110000 := by
  decide +kernel

theorem CaseRun.covers_iff {run : CaseRun} {n : Nat} :
    run.covers n = true ↔
      run.first ≤ n ∧ n ≤ run.last ∧ (n - run.first) % run.step = 0 := by
  simp [covers, and_assoc]

/-- The code point of a character that a run gives. -/
theorem toNat_ofNat_lower {run : CaseRun} (member : run ∈ caseRuns) {n : Nat}
    (covered : run.covers n = true) : (Char.ofNat (run.lower n)).toNat = run.lower n := by
  have valid : (run.lower n).isValidChar := by
    have bounds := all_caseRuns_valid run member
    obtain ⟨_, _, _⟩ := CaseRun.covers_iff.mp covered
    simp only [Nat.isValidChar, CaseRun.lower]
    omega
  rw [Char.ofNat, dif_pos valid]
  exact UInt32.toNat_ofNatLT

/-- **Three ways to lower case**: the one character that goes to two, a run, and no change. -/
theorem lowerCase_cases (c : Char) :
    lowerCase c = ['i', '\u0307'] ∨
      (∃ run ∈ caseRuns, ∃ d, lowerCase c = [d] ∧ run.covers c.toNat = true ∧
        d.toNat = run.lower c.toNat) ∨
      lowerCase c = [c] := by
  by_cases dotted : c.toNat = 0x130
  · exact .inl (by rw [lowerCase, if_pos dotted])
  · refine .inr ?_
    rw [lowerCase, if_neg dotted]
    cases found : caseRuns.find? (·.covers c.toNat) with
    | none => exact .inr rfl
    | some run =>
        have member := List.mem_of_find?_eq_some found
        have covered := List.find?_some found
        exact .inl ⟨run, member, _, rfl, covered, toNat_ofNat_lower member covered⟩

/-- A character that no run covers stays as it is. -/
theorem lowerCase_of_not_covers {c : Char} (dotted : c.toNat ≠ 0x130)
    (free : ∀ run ∈ caseRuns, ¬run.covers c.toNat) : lowerCase c = [c] := by
  rw [lowerCase, if_neg dotted, List.find?_eq_none.mpr free]

/-! ### Runs that do not meet -/

/-- No code point that a run maps to is covered by the other: their bounds lie apart, or one is even
where the other is odd. -/
def CaseRun.misses (run other : CaseRun) : Bool :=
  -- Both bounds by `Nat.blt`, which the kernel computes on binary numbers.
  (run.lowered + (run.last - run.first)).blt other.first || other.last.blt run.lowered ||
    (other.step = 2 && (run.step = 2 || run.first = run.last) &&
      (run.lowered + other.first) % 2 = 1)

theorem CaseRun.not_covers_of_misses {run other : CaseRun} (misses : run.misses other = true)
    {n : Nat} (covered : run.covers n = true) : ¬other.covers (run.lower n) = true := by
  simp only [CaseRun.misses, Bool.or_eq_true, Bool.and_eq_true, Nat.blt_eq, decide_eq_true_eq]
    at misses
  rw [covers_iff] at covered ⊢
  obtain ⟨first, last, steps⟩ := covered
  rintro ⟨least, greatest, others⟩
  unfold lower at least greatest others
  rcases misses with (below | above) | ⟨⟨twos, single | single⟩, odd⟩
  · omega
  · omega
  · rw [single] at steps
    rw [twos] at others
    omega
  · rw [twos] at others
    omega

/-- **No run maps into a run.** -/
theorem all_caseRuns_miss : (caseRuns.all fun run => caseRuns.all run.misses) = true := by
  decide +kernel

/-- Nor does one map to U+0130. -/
theorem all_caseRuns_apart : ∀ run ∈ caseRuns,
    run.lowered + (run.last - run.first) < 0x130 ∨ 0x130 < run.lowered := by
  decide +kernel

/-! ### Lower case of lower case -/

/-- **Lower case begins with a character that is its own lower case.** -/
theorem exists_lowerCase_eq_cons (c : Char) :
    ∃ d ds, lowerCase c = d :: ds ∧ lowerCase d = [d] := by
  obtain dotted | ⟨run, member, d, lowered, covered, code⟩ | same := lowerCase_cases c
  · exact ⟨'i', ['\u0307'], dotted, by decide +kernel⟩
  · have apart := all_caseRuns_apart run member
    have misses := List.all_eq_true.mp (List.all_eq_true.mp all_caseRuns_miss run member)
    obtain ⟨_, _, _⟩ := CaseRun.covers_iff.mp covered
    refine ⟨d, [], lowered, lowerCase_of_not_covers ?_ fun other inside => ?_⟩
    · rw [code, CaseRun.lower]
      omega
    · rw [code]
      exact CaseRun.not_covers_of_misses (misses other inside) covered
  · exact ⟨c, [], same, same⟩

/-! ### Cores -/

/-- The text is white space alone, or empty. -/
def AllBlank (s : String) : Prop :=
  ∀ c ∈ s.toList, isBlank c = true

instance (s : String) : Decidable (AllBlank s) :=
  List.decidableBAll (fun c => isBlank c = true) s.toList

/-- A text is white space, then its core, then white space. The core begins and ends with other
characters. -/
structure IsCore (s core : String) : Prop where
  begins : ∃ c rest, core.toList = c :: rest ∧ isBlank c = false
  ends : ∃ rest c, core.toList = rest ++ [c] ∧ isBlank c = false
  surrounded : ∃ before after, s = before ++ core ++ after ∧ AllBlank before ∧ AllBlank after

variable {s core : String}

/-! ### White space at the end of a list -/

variable {cs : List Char}

theorem dropBlankEnd_eq_nil_iff : dropBlankEnd cs = [] ↔ ∀ c ∈ cs, isBlank c = true :=
  List.rdropWhile_eq_nil_iff

/-- What is taken away is white space. -/
theorem exists_eq_dropBlankEnd_append (cs : List Char) :
    ∃ blanks, cs = dropBlankEnd cs ++ blanks ∧ ∀ c ∈ blanks, isBlank c = true :=
  ⟨cs.rtakeWhile isBlank, List.rdropWhile_append_rtakeWhile.symm,
    fun _ => List.mem_rtakeWhile_imp⟩

/-- What is left ends with another character. -/
theorem exists_dropBlankEnd_eq_concat (some : dropBlankEnd cs ≠ []) :
    ∃ rest c, dropBlankEnd cs = rest ++ [c] ∧ isBlank c = false :=
  ⟨_, _, (List.dropLast_append_getLast some).symm,
    Bool.eq_false_iff.mpr (List.rdropWhile_last_not isBlank cs some)⟩

theorem dropBlankEnd_append {blanks : List Char} (blank : ∀ c ∈ blanks, isBlank c = true)
    (ends : ∃ rest c, cs = rest ++ [c] ∧ isBlank c = false) : dropBlankEnd (cs ++ blanks) = cs := by
  obtain ⟨rest, c, rfl, inside⟩ := ends
  have reversed : ∀ c ∈ blanks.reverse, isBlank c = true := fun c member =>
    blank c (List.mem_reverse.mp member)
  rw [dropBlankEnd, List.reverse_append, List.dropWhile_append_of_pos reversed,
    List.reverse_concat', List.dropWhile_cons_of_neg (Bool.eq_false_iff.mp inside),
    List.reverse_cons, List.reverse_reverse]

/-! ### White space around a text -/

theorem toList_trim (s : String) : (trim s).toList = dropBlankEnd (s.toList.dropWhile isBlank) :=
  String.toList_ofList

/-- **There is only one core**, and it is what is left without the white space at the ends. -/
theorem IsCore.trim_eq (isCore : IsCore s core) : trim s = core := by
  obtain ⟨⟨c, rest, begins, inside⟩, ends, before, after, rfl, blankBefore, blankAfter⟩ := isCore
  rw [← String.toList_inj, toList_trim, String.toList_append, String.toList_append,
    List.append_assoc, List.dropWhile_append_of_pos blankBefore]
  have first : (core.toList ++ after.toList).dropWhile isBlank = core.toList ++ after.toList := by
    rw [begins, List.cons_append, List.dropWhile_cons_of_neg (Bool.eq_false_iff.mp inside)]
  rw [first, dropBlankEnd_append blankAfter ends]

/-- **A text that is not all white space has a core.** -/
theorem isCore_trim (visible : ¬AllBlank s) : IsCore s (trim s) := by
  have ahead : ∀ c ∈ s.toList.takeWhile isBlank, isBlank c = true :=
    fun _ => List.mem_takeWhile_imp
  have split : s.toList.takeWhile isBlank ++ s.toList.dropWhile isBlank = s.toList :=
    List.takeWhile_append_dropWhile
  obtain ⟨blanks, whole, behind⟩ := exists_eq_dropBlankEnd_append (s.toList.dropWhile isBlank)
  rw [← toList_trim] at whole
  have some : (trim s).toList ≠ [] := by
    intro none
    rw [toList_trim, dropBlankEnd_eq_nil_iff] at none
    refine visible ?_
    rw [AllBlank, ← split]
    exact List.forall_mem_append.mpr ⟨ahead, none⟩
  refine ⟨?_, ?_, String.ofList (s.toList.takeWhile isBlank), String.ofList blanks, ?_, ?_, ?_⟩
  · obtain ⟨c, rest, begins⟩ := List.exists_cons_of_ne_nil some
    have first := List.head?_dropWhile_not isBlank s.toList
    rw [whole, begins] at first
    exact ⟨c, rest, begins, first⟩
  · rw [toList_trim] at some ⊢
    exact exists_dropBlankEnd_eq_concat some
  · rw [← String.toList_inj, String.toList_append, String.toList_append, String.toList_ofList,
      String.toList_ofList, List.append_assoc, ← whole, split]
  · rwa [AllBlank, String.toList_ofList]
  · rwa [AllBlank, String.toList_ofList]

theorem isCore_iff (visible : ¬AllBlank s) : IsCore s core ↔ core = trim s := by
  constructor
  · intro isCore
    exact isCore.trim_eq.symm
  · rintro rfl
    exact isCore_trim visible

/-- The core of a text is its own core. -/
theorem IsCore.self (isCore : IsCore s core) : IsCore core core :=
  ⟨isCore.begins, isCore.ends, "", "", by simp, nofun, nofun⟩

theorem IsCore.not_allBlank (isCore : IsCore s core) : ¬AllBlank core := by
  obtain ⟨c, rest, begins, inside⟩ := isCore.begins
  intro blank
  exact Bool.eq_false_iff.mp inside (blank c (begins ▸ List.mem_cons_self))

/-- A text with a core is not all white space. -/
theorem IsCore.visible (isCore : IsCore s core) : ¬AllBlank s := by
  obtain ⟨before, after, rfl, -, -⟩ := isCore.surrounded
  intro blank
  refine isCore.not_allBlank fun c member => blank c ?_
  rw [String.toList_append, String.toList_append]
  exact List.mem_append_left _ (List.mem_append_right _ member)

theorem trim_of_allBlank (blank : AllBlank s) : trim s = "" := by
  rw [← String.toList_inj, toList_trim, List.dropWhile_eq_nil_iff.mpr blank]
  rfl

theorem trim_eq_empty_iff : trim s = "" ↔ AllBlank s := by
  refine ⟨fun empty => ?_, trim_of_allBlank⟩
  by_contra visible
  obtain ⟨c, rest, begins, -⟩ := (isCore_trim visible).begins
  rw [empty] at begins
  cases begins

end SignatureText.Text
