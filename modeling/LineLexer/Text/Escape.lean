import LineLexer.Text.Class

/-! Line ends, tabs and backslashes made visible, so that an escaped text fits on one line of a
listing and holds no tab. -/

namespace LineLexer.Text

def escapeChar : Char → Text
  | '\n' => ['\\', 'n']
  | '\t' => ['\\', 't']
  | '\\' => ['\\', '\\']
  | c => [c]

def escape (s : Text) : Text := s.flatMap escapeChar

@[simp] theorem escape_nil : escape [] = [] := rfl

@[simp] theorem escape_cons (c : Char) (s : Text) : escape (c :: s) = escapeChar c ++ escape s := by
  simp [escape]

end LineLexer.Text
