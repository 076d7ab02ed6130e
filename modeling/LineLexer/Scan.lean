import LineLexer.Reader.Open
import LineLexer.Trivia

/-! Scanning a file: blanks and comments are skipped, and what a pattern captures at the first
character behind them becomes fragments. A turn that takes nothing otherwise takes one character
as a fragment of its own. -/

namespace LineLexer

structure Scan where
  config : Config
  keepComments : Bool := false
  patterns : List Pattern.Source

namespace Scan

/-- Tried behind all patterns, so that each character is found by itself. -/
def singleCharacter : Pattern.Source := .written "(\\S)".toList

def usualPatterns : List Text := ["([A-Za-z_]\\w*)".toList, "(\\d+(?:\\.\\d+)?)".toList]

def trivia (s : Scan) : Trivia := ⟨s.config, s.keepComments⟩

/-- The fragments of a match: its captures or, where it captured nothing, all that it covers. -/
def fragmentsOf (start : Location) (queue : List Capture) (m : Option Match) : List Fragment :=
  match queue.filterMap Capture.fragment?, m with
  | [], some m => if m.wholeText.isEmpty then [] else [⟨start, m.wholeText⟩]
  | found, _ => found

def matchHere (s : Scan) : Op (List Fragment × Bool) := do
  let start := (← get).location
  let found ← Reader.acceptFirst (s.patterns ++ [singleCharacter]) none none true
  let queue ← Reader.drainQueue
  let after ← get
  return (fragmentsOf start queue after.lastMatch, found && after.location != start)

def takeOne : Op (List Fragment) := do
  let start := (← get).location
  return (← Reader.next).toList.map fun c => ⟨start, [c]⟩

def turn (s : Scan) (done : List Fragment) : Op (List Fragment ⊕ List Fragment) := do
  let done := (← s.trivia.skip).reverse ++ done
  if (← get).ended then return .inr done
  let (found, moved) ← s.matchHere
  let done := found.reverse ++ done
  if moved then return .inl done else return .inl ((← takeOne) ++ done)

theorem matchHere_eq_ok {s : Scan} {x : List Fragment × Bool} {r t : Reader}
    (hrest : r.rest ≠ []) (h : s.matchHere r = .ok x t) :
    t.unread < r.unread ∨ (t.unread = r.unread ∧ t.ended = r.ended ∧ x.2 = false) := by
  obtain ⟨_, _, hget, h⟩ := Op.bind_eq_ok.1 h
  cases hget
  obtain ⟨found, u, hmatch, h⟩ := Op.bind_eq_ok.1 h
  obtain ⟨queue, v, hdrain, h⟩ := Op.bind_eq_ok.1 h
  obtain ⟨_, _, hget, h⟩ := Op.bind_eq_ok.1 h
  cases hget
  obtain ⟨rfl, rfl⟩ := Op.pure_eq_ok.1 h
  cases hdrain
  rcases Reader.acceptFirst_eq_ok hrest hmatch with hplace | hlt
  · have hloc : ({ u with queue := [] } : Reader).location = r.location := hplace.location
    exact .inr ⟨hplace.unread, hplace.ended, by simp [hloc]⟩
  · exact .inl hlt

theorem takeOne_eq_ok {found : List Fragment} {r t : Reader} (h : takeOne r = .ok found t) :
    t.unread ≤ r.unread ∧ (r.ended = false → t.unread < r.unread) := by
  obtain ⟨_, _, hget, h⟩ := Op.bind_eq_ok.1 h
  cases hget
  obtain ⟨c?, u, hnext, h⟩ := Op.bind_eq_ok.1 h
  obtain ⟨-, rfl⟩ := Op.pure_eq_ok.1 h
  cases hr : r.ended with
  | true =>
    rw [Reader.next_of_ended hr] at hnext
    cases hnext
    simp
  | false =>
    have hlt := Reader.unread_next hr hnext
    exact ⟨Nat.le_of_lt hlt, fun _ => hlt⟩

theorem turn_shrinks (s : Scan) (done : List Fragment) (r : Reader) (more : List Fragment)
    (t : Reader) (h : s.turn done r = .ok (.inl more) t) : t.unread < r.unread := by
  obtain ⟨comments, u, hskip, h⟩ := Op.bind_eq_ok.1 h
  have hu := Trivia.unread_skip hskip
  have hend := Trivia.rest_of_skip hskip
  obtain ⟨_, _, hget, h⟩ := Op.bind_eq_ok.1 h
  cases hget
  split at h
  · cases h
  · rename_i hended
    have hrest : u.rest ≠ [] := hend.resolve_left hended
    obtain ⟨⟨found, moved⟩, v, hmatch, h⟩ := Op.bind_eq_ok.1 h
    have hv := matchHere_eq_ok hrest hmatch
    cases moved with
    | true =>
      obtain ⟨-, rfl⟩ := Op.pure_eq_ok.1 h
      simp only [Bool.true_eq_false, and_false, or_false] at hv
      omega
    | false =>
      obtain ⟨one, w, hone, h⟩ := Op.bind_eq_ok.1 h
      obtain ⟨-, rfl⟩ := Op.pure_eq_ok.1 h
      obtain ⟨hle, hlt⟩ := takeOne_eq_ok hone
      rcases hv with hv | ⟨hv, hve, -⟩
      · omega
      · have := hlt (by rw [hve]; simpa using hended)
        omega

def fragments (s : Scan) : Op (List Fragment) := do
  return (← Op.loop s.turn s.turn_shrinks []).reverse

structure Outcome where
  result : Except Fault (List Fragment)
  notes : List Note

def run (s : Scan) (fs : FileSystem) (file : Text) : Outcome :=
  match Reader.ofFile fs file s.config with
  | .error failure => ⟨.error failure.fault, failure.notes⟩
  | .ok r => match s.fragments r with
    | .ok found r => ⟨.ok found, r.close.notes⟩
    | .error fault r => ⟨.error fault, r.close.notes⟩

end Scan
end LineLexer
