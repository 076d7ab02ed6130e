/-! Texts are lists of characters. A set of code points is a table of ranges in ascending order,
so that looking one up stops at the first range beyond it. -/

namespace LineLexer

abbrev Text := List Char

namespace Text

/-- Each range begins before it ends, and behind the one before it. -/
def Ascending : List (Nat × Nat) → Bool
  | [] => true
  | [(low, high)] => low ≤ high
  | (low, high) :: (low', high') :: rest =>
    low ≤ high && high < low' && Ascending ((low', high') :: rest)

def liesIn : List (Nat × Nat) → Nat → Bool
  | [], _ => false
  | (low, high) :: rest, n => low ≤ n && (n ≤ high || liesIn rest n)

theorem Ascending.tail {r : Nat × Nat} {rest : List (Nat × Nat)}
    (h : Ascending (r :: rest) = true) : Ascending rest = true := by
  cases rest with
  | nil => rfl
  | cons q rest =>
    simp only [Ascending, Bool.and_eq_true] at h
    exact h.2

theorem Ascending.low_le {r q : Nat × Nat} {rest : List (Nat × Nat)}
    (h : Ascending (r :: rest) = true) (hq : q ∈ rest) : r.1 ≤ q.1 := by
  induction rest generalizing r with
  | nil => cases hq
  | cons p rest ih =>
    have hp : r.1 ≤ p.1 := by
      simp only [Ascending, Bool.and_eq_true, decide_eq_true_eq] at h
      omega
    rcases List.mem_cons.1 hq with rfl | hq
    · exact hp
    · exact Nat.le_trans hp (ih (Ascending.tail h) hq)

theorem liesIn_eq_true {ranges : List (Nat × Nat)} {n : Nat} (h : Ascending ranges = true) :
    liesIn ranges n = true ↔ ∃ r ∈ ranges, r.1 ≤ n ∧ n ≤ r.2 := by
  induction ranges with
  | nil => simp [liesIn]
  | cons r rest ih =>
    simp only [liesIn, Bool.and_eq_true, Bool.or_eq_true, decide_eq_true_eq, ih (Ascending.tail h),
      List.mem_cons, or_and_right, exists_or, exists_eq_left]
    constructor
    · rintro ⟨hlow, hhigh | hrest⟩
      · exact .inl ⟨hlow, hhigh⟩
      · exact .inr hrest
    · rintro (⟨hlow, hhigh⟩ | ⟨q, hq, hbounds⟩)
      · exact ⟨hlow, .inl hhigh⟩
      · exact ⟨Nat.le_trans (Ascending.low_le h hq) hbounds.1, .inr ⟨q, hq, hbounds⟩⟩

structure CodePoints where
  ranges : List (Nat × Nat)
  ascending : Ascending ranges = true := by decide +kernel

namespace CodePoints

def holds (s : CodePoints) (c : Char) : Bool := liesIn s.ranges c.toNat

theorem holds_eq_true {s : CodePoints} {c : Char} :
    s.holds c = true ↔ ∃ r ∈ s.ranges, r.1 ≤ c.toNat ∧ c.toNat ≤ r.2 :=
  liesIn_eq_true s.ascending

theorem holds_eq_false_of_apart {s t : CodePoints} {c : Char}
    (hapart : s.ranges.all (fun r => t.ranges.all fun q => r.2 < q.1 || q.2 < r.1) = true)
    (h : s.holds c = true) : t.holds c = false := by
  rw [Bool.eq_false_iff, Ne, holds_eq_true]
  rintro ⟨q, hq, hlow, hhigh⟩
  obtain ⟨r, hr, hlow', hhigh'⟩ := holds_eq_true.1 h
  have hrq := List.all_eq_true.1 (List.all_eq_true.1 hapart r hr) q hq
  simp only [Bool.or_eq_true, decide_eq_true_eq] at hrq
  omega

end CodePoints
end Text
end LineLexer
