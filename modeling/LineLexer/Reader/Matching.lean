import LineLexer.Reader.Progress

/-! Matching patterns against the rest of the line, and the queue of captures that matches leave
behind. Captures stay queued until they are taken off, except that a lexical error empties the
queue. -/

namespace LineLexer

/-- A pattern as it is handed in: written, to be read each time it is tried, or read already. A
written one may call characters by their names. -/
inductive Pattern.Source
  | written (text : Text) (named : Text → Option Char := fun _ => none)
  | ready (pattern : Pattern)

def Pattern.Source.resolve : Pattern.Source → Except LineLexer.Fault Pattern
  | written text named => (Pattern.parse {} text named).mapError .pattern
  | ready pattern => .ok pattern

namespace Reader

def subject : Option Text → Op Text
  | some s => pure s
  | none => remainder

/-- Matches the rest of the line, or another text. A pattern that cannot be read leaves the match
before it in place. -/
def matchPattern (p : Pattern.Source) (text : Option Text) : Op Bool := do
  let searched ← subject text
  let pattern ← Op.ofExcept p.resolve
  let found := pattern.match? searched
  modify fun r => { r with lastMatch := found }
  return found.isSome

def matchFirst (text : Option Text) : List Pattern.Source → Op Bool
  | [] => return false
  | p :: ps => do
    if ← matchPattern p text then return true else matchFirst text ps

/-- The spans of groups that took part, less those that start where the one kept last starts. -/
def keptSpans (previous : Option Nat) : List (Option Pattern.Span) → List Pattern.Span
  | [] => []
  | none :: rest => keptSpans previous rest
  | some span :: rest =>
    if previous = some span.start then keptSpans previous rest
    else span :: keptSpans (some span.start) rest

def fragmentsOf (m : Match) (start : Location) : List Fragment :=
  (keptSpans none m.groups).map fun span => ⟨start.offset span.start, span.of m.text⟩

def participating (m : Match) : Nat := (m.groups.filter (·.isSome)).length

def acceptMatch : Op Unit := fun r =>
  match r.lastMatch with
  | some m => accept m.whole.stop r
  | none => .ok () r

def failLexically {α : Type} (kind : LexicalKind) : Op α := do
  let doing := (← get).lastMatch.map Match.wholeText
  acceptMatch
  let location := (← get).location
  modify fun r => { r with queue := [] }
  throw (.lexical kind location doing)

def queueFragments (m : Match) (save : Bool) : Op Unit := fun r =>
  .ok () (if save then
    { r with queue := r.queue ++ (fragmentsOf m r.location).map Fragment.capture }
  else r)

def checkCount (m : Match) (counts : Option (List Int)) : Op Unit :=
  if counts.any fun ns => !ns.contains (participating m : Int) then failLexically .groupCount
  else pure ()

def takeMatch (counts : Option (List Int)) (save : Bool) : Op Unit := fun r =>
  match r.lastMatch with
  | some m => (do queueFragments m save; checkCount m counts; acceptMatch : Op Unit) r
  | none => .ok () r

def acceptFirst (patterns : List Pattern.Source) (counts : Option (List Int))
    (text : Option Text) (save : Bool) : Op Bool := do
  if ← matchFirst text patterns then
    takeMatch counts save
    return true
  else return false

def groupText (group : Int) (r : Reader) : Except Fault (Option Text) :=
  match r.lastMatch with
  | none => .ok none
  | some m => match m.groupText? group with
    | some text? => .ok text?
    | none => .error .noSuchGroup

def groupCount (r : Reader) : Nat := (r.lastMatch.map (·.groups.length)).getD 0

def groupSpan (group : Int) (r : Reader) : Except Fault (Option Pattern.Span) :=
  match r.lastMatch with
  | none => .error (.breach .noSpan)
  | some m => match m.span? group with
    | some span? => .ok span?
    | none => .error .noSuchGroup

def queueGroup (group : Int) (save : Bool) : Op Unit := fun r =>
  if !save then .ok () r
  else match r.lastMatch with
    | none => .error .noMatch r
    | some m => match m.groupText? group with
      | none => .error .noSuchGroup r
      | some text? => .ok () { r with queue := r.queue ++ [⟨r.location, text?⟩] }

def fetchGroup (group : Int) : Op (Option Text) := do
  let r ← get
  if (r.groupCount : Int) < group then throw (.breach (.noGroup group))
  let text ← Op.observe (groupText group)
  queueGroup group true
  return text

def popCapture : Op Capture := fun r =>
  match r.queue with
  | [] => .error .emptyQueue r
  | c :: rest => .ok c { r with queue := rest }

def drainQueue : Op (List Capture) := fun r => .ok r.queue { r with queue := [] }

def clearQueue : Op Unit := modify fun r => { r with queue := [] }

structure SamePlace (r s : Reader) : Prop where
  unread : s.unread = r.unread
  location : s.location = r.location
  ended : s.ended = r.ended
  rest : s.rest = r.rest

theorem SamePlace.refl (r : Reader) : SamePlace r r := ⟨rfl, rfl, rfl, rfl⟩

theorem SamePlace.trans {r s t : Reader} (h : SamePlace r s) (h' : SamePlace s t) :
    SamePlace r t :=
  ⟨h'.unread.trans h.unread, h'.location.trans h.location, h'.ended.trans h.ended,
    h'.rest.trans h.rest⟩

theorem remainder_eq_ok {r s : Reader} {t : Text} (h : remainder r = .ok t s) :
    SamePlace r s := by
  unfold remainder cacheRemainder at h
  split at h <;> cases h <;> exact ⟨rfl, rfl, rfl, rfl⟩

theorem matchPattern_eq_ok {p : Pattern.Source} {text : Option Text} {b : Bool} {r s : Reader}
    (h : matchPattern p text r = .ok b s) : SamePlace r s ∧ s.lastMatch.isSome = b := by
  unfold matchPattern at h
  obtain ⟨searched, t, hsubject, h⟩ := Op.bind_eq_ok.1 h
  obtain ⟨pattern, u, hpattern, h⟩ := Op.bind_eq_ok.1 h
  obtain ⟨⟨⟩, v, hmod, h⟩ := Op.bind_eq_ok.1 h
  obtain ⟨rfl, rfl⟩ := Op.pure_eq_ok.1 h
  have ht : SamePlace r t := by
    cases text with
    | none => exact remainder_eq_ok hsubject
    | some given =>
      obtain ⟨-, rfl⟩ := Op.pure_eq_ok.1 hsubject
      exact .refl r
  have hu : t = u := by
    cases hp : p.resolve with
    | ok q =>
      rw [hp] at hpattern
      exact (Op.pure_eq_ok.1 hpattern).2
    | error fault =>
      rw [hp] at hpattern
      cases hpattern
  subst hu
  cases hmod
  exact ⟨⟨ht.unread, ht.location, ht.ended, ht.rest⟩, rfl⟩

theorem matchFirst_eq_ok {text : Option Text} {patterns : List Pattern.Source} {b : Bool}
    {r s : Reader} (h : matchFirst text patterns r = .ok b s) :
    SamePlace r s ∧ (b = true → s.lastMatch.isSome = true) := by
  induction patterns generalizing r with
  | nil =>
    obtain ⟨rfl, rfl⟩ := Op.pure_eq_ok.1 h
    exact ⟨.refl r, by simp⟩
  | cons p ps ih =>
    obtain ⟨found, t, hfirst, h⟩ := Op.bind_eq_ok.1 h
    obtain ⟨hplace, hsome⟩ := matchPattern_eq_ok hfirst
    cases found with
    | true =>
      obtain ⟨rfl, rfl⟩ := Op.pure_eq_ok.1 h
      exact ⟨hplace, fun _ => hsome⟩
    | false =>
      obtain ⟨hplace', hsome'⟩ := ih h
      exact ⟨hplace.trans hplace', hsome'⟩

theorem acceptMatch_eq_ok {r s : Reader} (hrest : r.rest ≠ []) (h : acceptMatch r = .ok () s) :
    s = r ∨ s.unread < r.unread := by
  unfold acceptMatch at h
  split at h
  · exact unread_accept_lt hrest h
  · cases h
    exact .inl rfl

theorem queueFragments_eq_ok {m : Match} {save : Bool} {r s : Reader}
    (h : queueFragments m save r = .ok () s) : SamePlace r s := by
  cases h
  split <;> exact ⟨rfl, rfl, rfl, rfl⟩

theorem acceptFirst_eq_ok {patterns : List Pattern.Source} {text : Option Text}
    {save b : Bool} {r s : Reader} (hrest : r.rest ≠ [])
    (h : acceptFirst patterns none text save r = .ok b s) :
    SamePlace r s ∨ s.unread < r.unread := by
  obtain ⟨found, t, hfirst, h⟩ := Op.bind_eq_ok.1 h
  obtain ⟨hplace, -⟩ := matchFirst_eq_ok hfirst
  cases found with
  | false =>
    obtain ⟨-, rfl⟩ := Op.pure_eq_ok.1 h
    exact .inl hplace
  | true =>
    obtain ⟨_, u, htake, h⟩ := Op.bind_eq_ok.1 h
    obtain ⟨-, rfl⟩ := Op.pure_eq_ok.1 h
    unfold takeMatch at htake
    split at htake
    · obtain ⟨_, v, hqueue, htake⟩ := Op.bind_eq_ok.1 htake
      obtain ⟨_, w, hcheck, htake⟩ := Op.bind_eq_ok.1 htake
      obtain ⟨-, rfl⟩ := Op.pure_eq_ok.1 hcheck
      have hv := hplace.trans (queueFragments_eq_ok hqueue)
      rcases acceptMatch_eq_ok (by rw [hv.rest]; exact hrest) htake with rfl | hlt
      · exact .inl hv
      · exact .inr (by rw [← hv.unread]; exact hlt)
    · cases htake
      exact .inl hplace

end Reader
end LineLexer
