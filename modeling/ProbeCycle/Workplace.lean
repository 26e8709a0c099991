import ProbeCycle.Error

namespace ProbeCycle.Workplace

/-- Nine systems: six with a code of their own, three as fractions of the sixth. -/
def count : Nat := 9

/-- The word that selects a work coordinate system. -/
def select (index : UInt64) : Except WorkplaceError String :=
  let n := index.toNat
  if n < 6 then .ok s!"G{54 + n}"
  else if n < count then .ok s!"G59.{n - 5}"
  else .error ⟨index, count - 1⟩

end ProbeCycle.Workplace
