/-! # Clocked runs

A machine that takes one input per tick, driven through a list of inputs.
-/

namespace ElasticCore

variable {σ ι ο : Type}

/-- The outputs of a run, in order, and the state after it. -/
def clock (tick : σ → ι → ο × σ) : σ → List ι → List ο × σ
  | s, [] => ([], s)
  | s, i :: is =>
    let (o, s') := tick s i
    let (os, s'') := clock tick s' is
    (o :: os, s'')

@[simp] theorem clock_nil (tick : σ → ι → ο × σ) (s : σ) : clock tick s [] = ([], s) := rfl

@[simp] theorem clock_cons (tick : σ → ι → ο × σ) (s : σ) (i : ι) (is : List ι) :
    clock tick s (i :: is) =
      ((tick s i).1 :: (clock tick (tick s i).2 is).1, (clock tick (tick s i).2 is).2) := rfl

theorem clock_append (tick : σ → ι → ο × σ) (s : σ) (is js : List ι) :
    clock tick s (is ++ js) =
      ((clock tick s is).1 ++ (clock tick (clock tick s is).2 js).1,
        (clock tick (clock tick s is).2 js).2) := by
  induction is generalizing s with
  | nil => simp
  | cons i is ih => simp [ih]

theorem getElem?_clock (tick : σ → ι → ο × σ) (s : σ) (is : List ι) (n : Nat) :
    (clock tick s is).1[n]? = is[n]?.map fun i => (tick (clock tick s (is.take n)).2 i).1 := by
  induction is generalizing s n with
  | nil => rfl
  | cons i is ih => cases n <;> simp [ih]

theorem take_clock (tick : σ → ι → ο × σ) (s : σ) (is : List ι) (n : Nat) :
    (clock tick s is).1.take n = (clock tick s (is.take n)).1 := by
  induction is generalizing s n with
  | nil => simp
  | cons i is ih => cases n <;> simp [ih]

@[simp] theorem length_clock (tick : σ → ι → ο × σ) (s : σ) (is : List ι) :
    (clock tick s is).1.length = is.length := by
  induction is generalizing s with
  | nil => rfl
  | cons i is ih => simp [ih]

end ElasticCore
