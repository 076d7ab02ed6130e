import LineLexer.Reader.Progress

/-! The characters still to come, taken one after another. When reading fails those taken so far
are lost. -/

namespace LineLexer.Reader

structure Taken where
  left : Option Nat
  done : Text := []

def Taken.add (t : Taken) (c : Char) : Taken := ⟨t.left.map (· - 1), c :: t.done⟩

def takeTurn (t : Taken) : Op (Taken ⊕ Text) := do
  if (← get).ended || t.left == some 0 then return .inr t.done.reverse
  else match ← next with
    | some c => return .inl (t.add c)
    | none => return .inr t.done.reverse

theorem takeTurn_shrinks (t : Taken) (r : Reader) (t' : Taken) (s : Reader)
    (h : takeTurn t r = .ok (.inl t') s) : s.unread < r.unread := by
  obtain ⟨_, _, hget, h⟩ := Op.bind_eq_ok.1 h
  cases hget
  split at h
  · cases h
  · rename_i hended
    obtain ⟨c?, u, hnext, h⟩ := Op.bind_eq_ok.1 h
    have hlt := unread_next (by simp_all) hnext
    split at h <;> obtain ⟨-, rfl⟩ := Op.pure_eq_ok.1 h <;> exact hlt

def take (limit : Option Nat) : Op Text := Op.loop takeTurn takeTurn_shrinks ⟨limit, []⟩

end LineLexer.Reader
