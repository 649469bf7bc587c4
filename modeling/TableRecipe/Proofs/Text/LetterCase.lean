import TableRecipe.Text.LetterCase
import Mathlib.Data.List.Pairwise
import Mathlib.Data.List.Chain

/-!
# Letters that differ by case only

The runs of letters that folding moves do not overlap, and none of their images is moved again.
Hence the letters that count as the same as a given one are those with the same representative.

* `image_eq_of_covers` — the run that covers a letter says where it goes;
* `fold_fold` — a representative represents itself;
* `mem_variants` — the letters equal to another one up to case.
-/

namespace TableRecipe.LetterCase

variable {run other : Run} {code : Nat}

theorem Run.covers_iff : run.covers code = true ↔
    run.first ≤ code ∧ code ≤ run.last ∧ (code - run.first) % run.step = 0 := by
  simp [covers, and_assoc]

/-! ## The runs -/

/-- whether the code points from one to another are characters -/
def areChars (first last : Int) : Bool :=
  (0 ≤ first && last < 0xd800) || (0xdfff < first && last < 0x110000)

/-- whether a run moves characters to characters -/
def Run.movesChars (run : Run) : Bool :=
  areChars run.first run.last && areChars (run.first + run.shift) (run.last + run.shift)

/-- the letters of a run -/
def Run.letters (run : Run) : List Nat :=
  (List.range ((run.last - run.first) / run.step + 1)).map (run.first + run.step * ·)

/-- the images of the letters of a run -/
def Run.images (run : Run) : List Nat :=
  run.letters.map fun (letter : Nat) => ((letter : Int) + run.shift).toNat

/-- a set of numbers as the number that has its bits there -/
def bits (codes : List Nat) : Nat := codes.foldr (fun code bits => bits ||| 1 <<< code) 0

theorem testBit_bits {codes : List Nat} (h : code ∈ codes) : (bits codes).testBit code = true := by
  induction codes with
  | nil => cases h
  | cons other codes ih =>
    rw [bits, List.foldr_cons, Nat.testBit_or]
    obtain rfl | h := List.mem_cons.mp h
    · simp
    · exact Bool.or_eq_true_iff.mpr (.inl (ih h))

theorem Run.mem_letters (hcovers : run.covers code = true) : code ∈ run.letters := by
  obtain ⟨hfirst, hlast, hstep⟩ := Run.covers_iff.mp hcovers
  refine List.mem_map.mpr ⟨(code - run.first) / run.step, List.mem_range.mpr ?_, ?_⟩
  · exact Nat.lt_succ_of_le (Nat.div_le_div_right (Nat.sub_le_sub_right hlast _))
  · rw [Nat.mul_div_cancel' (Nat.dvd_of_mod_eq_zero hstep)]
    omega

theorem movesChars_foldRuns : ∀ run ∈ foldRuns, run.movesChars = true := by decide +kernel

/-- No image is a letter. -/
theorem bits_letters_and_images :
    bits (foldRuns.flatMap Run.letters) &&& bits (foldRuns.flatMap Run.images) = 0 := by
  decide +kernel

/-- The runs are in order, none of them empty. -/
theorem isChain_foldRuns :
    foldRuns.IsChain fun run other => run.last < other.first ∧ other.first ≤ other.last := by
  decide +kernel

/-- No letter is covered twice. -/
theorem eq_of_covers (hrun : run ∈ foldRuns) (hother : other ∈ foldRuns)
    (hcovers : run.covers code = true) (hcovers' : other.covers code = true) : run = other := by
  have htrans : IsTrans Run fun run other => run.last < other.first ∧ other.first ≤ other.last :=
    ⟨fun a b c hab hbc => ⟨by omega, hbc.2⟩⟩
  have hapart : foldRuns.Pairwise fun run other =>
      ¬(run.covers code = true ∧ other.covers code = true) := by
    refine (List.isChain_iff_pairwise.mp isChain_foldRuns).imp fun horder hboth => ?_
    obtain ⟨-, hlast, -⟩ := Run.covers_iff.mp hboth.1
    obtain ⟨hfirst, -, -⟩ := Run.covers_iff.mp hboth.2
    omega
  have hsymm : Std.Symm fun run other : Run =>
      ¬(run.covers code = true ∧ other.covers code = true) := ⟨fun _ _ h hboth => h hboth.symm⟩
  by_contra hne
  exact hapart.forall hrun hother hne ⟨hcovers, hcovers'⟩

/-! ## Images -/

/-- The run that covers a letter says where it goes. -/
theorem image_eq_of_covers (hrun : run ∈ foldRuns) (hcovers : run.covers code = true) :
    image foldRuns code = ((code : Int) + run.shift).toNat := by
  rw [image]
  split
  case h_1 other hfind =>
    have hcovers' : other.covers code = true := by simpa using List.find?_some hfind
    rw [eq_of_covers hrun (List.mem_of_find?_eq_some hfind) hcovers hcovers']
  case h_2 hnone => exact absurd hcovers (by simpa using List.find?_eq_none.mp hnone run hrun)

/-- Letters that no run covers stay. -/
theorem image_eq_self (h : ∀ run ∈ foldRuns, run.covers code = false) :
    image foldRuns code = code := by
  rw [image, List.find?_eq_none.mpr (by simpa using h)]

/-- A run moves characters to characters. -/
theorem isValidChar_of_covers (hrun : run ∈ foldRuns) (hcovers : run.covers code = true) :
    code.isValidChar ∧ (image foldRuns code).isValidChar ∧
      (image foldRuns code : Int) = code + run.shift := by
  obtain ⟨hfirst, hlast, -⟩ := Run.covers_iff.mp hcovers
  have hchars := movesChars_foldRuns run hrun
  simp only [Run.movesChars, areChars, Bool.and_eq_true, Bool.or_eq_true, decide_eq_true_eq]
    at hchars
  rw [image_eq_of_covers hrun hcovers]
  simp only [Nat.isValidChar]
  omega

/-- No image is moved again. -/
theorem image_image (code : Nat) : image foldRuns (image foldRuns code) = image foldRuns code := by
  by_cases hmoved : ∃ run ∈ foldRuns, run.covers code = true
  · obtain ⟨run, hrun, hcovers⟩ := hmoved
    refine image_eq_self fun other hother => ?_
    by_contra hagain
    have hletter : image foldRuns code ∈ foldRuns.flatMap Run.letters :=
      List.mem_flatMap.mpr ⟨other, hother, Run.mem_letters (Bool.not_eq_false _ ▸ hagain)⟩
    have himage : image foldRuns code ∈ foldRuns.flatMap Run.images :=
      List.mem_flatMap.mpr ⟨run, hrun, List.mem_map.mpr
        ⟨code, Run.mem_letters hcovers, (image_eq_of_covers hrun hcovers).symm⟩⟩
    have hboth := congrArg (·.testBit (image foldRuns code)) bits_letters_and_images
    simp [testBit_bits hletter, testBit_bits himage] at hboth
  · have hself : image foldRuns code = code := image_eq_self (by simpa using hmoved)
    rw [hself, hself]

/-! ## Representatives -/

theorem toNat_ofNat (h : code.isValidChar) : (Char.ofNat code).toNat = code := by
  rw [Char.ofNat, dif_pos h]
  rfl

/-- ASCII letters are folded like all others. -/
theorem fold_eq (c : Char) : fold c = Char.ofNat (image foldRuns c.toNat) := by
  rw [fold]
  split
  case isFalse => rfl
  case isTrue hascii =>
    have hlower : ∀ code < 128, (Char.ofNat code).toLower =
        Char.ofNat (if 65 ≤ code ∧ code ≤ 90 then code + 32 else code) := by decide +kernel
    have hbeyond : ∀ run ∈ foldRuns.tail, 128 ≤ run.first := by decide +kernel
    have hruns : foldRuns = ⟨65, 90, 1, 32⟩ :: foldRuns.tail := rfl
    have himage : image foldRuns c.toNat =
        if 65 ≤ c.toNat ∧ c.toNat ≤ 90 then c.toNat + 32 else c.toNat := by
      split
      case isTrue hcapital =>
        rw [image_eq_of_covers (hruns ▸ List.mem_cons_self)
          (Run.covers_iff.mpr ⟨hcapital.1, hcapital.2, Nat.mod_one _⟩)]
        rfl
      case isFalse hsmall =>
        refine image_eq_self fun run hrun => ?_
        by_contra hcovers
        obtain ⟨hfirst, hlast, -⟩ := Run.covers_iff.mp (Bool.not_eq_false _ ▸ hcovers)
        rw [hruns] at hrun
        obtain rfl | hrun := List.mem_cons.mp hrun
        · exact hsmall ⟨hfirst, hlast⟩
        · have := hbeyond run hrun
          omega
    rw [himage, ← hlower _ hascii, Char.ofNat_toNat]

/-- The code of a representative. -/
theorem toNat_fold (c : Char) : (fold c).toNat = image foldRuns c.toNat := by
  have hvalid : (image foldRuns c.toNat).isValidChar := by
    by_cases hmoved : ∃ run ∈ foldRuns, run.covers c.toNat = true
    · obtain ⟨run, hrun, hcovers⟩ := hmoved
      exact (isValidChar_of_covers hrun hcovers).2.1
    · rw [image_eq_self (by simpa using hmoved)]
      exact c.valid
  rw [fold_eq, toNat_ofNat hvalid]

/-- A representative represents itself. -/
theorem fold_fold (c : Char) : fold (fold c) = fold c := by
  rw [fold_eq (fold c), toNat_fold, image_image, ← fold_eq]

/-- **The letters equal to another one up to case** are those with the same representative. -/
theorem mem_variants {p c : Char} : p ∈ variants c ↔ sameLetter p c = true := by
  rw [sameLetter, beq_iff_eq, variants, List.mem_cons, List.mem_filterMap]
  constructor
  · rintro (rfl | ⟨run, hrun, hsource⟩)
    · exact fold_fold c
    · dsimp only at hsource
      split at hsource
      case isTrue hcovers =>
        obtain ⟨hpositive, hcovers⟩ : 0 ≤ ((fold c).toNat : Int) - run.shift ∧
            run.covers (((fold c).toNat : Int) - run.shift).toNat = true := by simpa using hcovers
        obtain rfl := Option.some.inj hsource
        rw [fold_eq, toNat_ofNat (isValidChar_of_covers hrun hcovers).1,
          image_eq_of_covers hrun hcovers, Int.toNat_of_nonneg hpositive, Int.sub_add_cancel,
          Int.toNat_natCast, Char.ofNat_toNat]
      case isFalse => cases hsource
  · intro hfold
    by_cases hmoved : ∃ run ∈ foldRuns, run.covers p.toNat = true
    · obtain ⟨run, hrun, hcovers⟩ := hmoved
      refine .inr ⟨run, hrun, ?_⟩
      obtain ⟨-, -, himage⟩ := isValidChar_of_covers hrun hcovers
      have hsource : ((fold c).toNat : Int) - run.shift = p.toNat := by
        rw [← hfold, toNat_fold]
        omega
      simp only [hsource]
      simp [hcovers]
    · rw [← hfold, fold_eq, image_eq_self (by simpa using hmoved), Char.ofNat_toNat]
      exact .inl rfl

end TableRecipe.LetterCase
