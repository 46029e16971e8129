/-!
# Fresh names

Identifiers that nobody has used before come from a supply: a row of names, and how many of them have
been drawn. What the names look like does not matter; results that need them to differ say so.
-/
namespace TransitPush

structure Supply where
  name : Nat → String
  drawn : Nat

namespace Supply

/-- The next name, and the supply after it. -/
def draw (s : Supply) : String × Supply :=
  (s.name s.drawn, { s with drawn := s.drawn + 1 })

/-- No name occurs twice in the row. -/
def Distinct (s : Supply) : Prop :=
  ∀ i j, s.name i = s.name j → i = j

end Supply
end TransitPush
