import AscendAI.Lib.ListWindow

/-!
# Redis lists

The list commands of Redis on the elements of one key. An index counts from the head,
a negative one from the tail; a range is closed and is clipped to the list. A key
without elements does not exist, so an absent key is the empty list.
-/

namespace RedisList

variable {α : Type*}

/-- The position that the index `i` denotes in a list of `n` elements. -/
def position (n : ℕ) (i : ℤ) : ℤ := if i < 0 then i + n else i

/-- `LRANGE key start stop`: the elements from `start` to `stop`, both included. -/
def lrange (l : List α) (start stop : ℤ) : List α :=
  (l.take (position l.length stop + 1).toNat).drop (position l.length start).toNat

/-- `LTRIM key start stop` keeps what `LRANGE` would return. -/
def ltrim (l : List α) (start stop : ℤ) : List α := lrange l start stop

def rpush (l : List α) (a : α) : List α := l ++ [a]

def rpushAll (l : List α) (as : List α) : List α := l ++ as

def lpush (l : List α) (a : α) : List α := a :: l

/-- The index `-1` is the last element, so a range up to it is open to the tail. -/
lemma position_last (n : ℕ) : (position n (-1) + 1).toNat = n := by
  simp only [position]
  omega

lemma position_natCast (p n : ℕ) : (position n (p : ℤ)).toNat = p := by
  simp only [position]
  omega

@[simp] lemma lrange_all (l : List α) : lrange l 0 (-1) = l := by
  rw [lrange, position_last, List.take_length]
  exact congrArg (l.drop ·) (position_natCast 0 l.length)

@[simp] lemma ltrim_nil (start stop : ℤ) : ltrim ([] : List α) start stop = [] := by
  simp [ltrim, lrange]

lemma ltrim_sublist (l : List α) (start stop : ℤ) : (ltrim l start stop).Sublist l :=
  (List.drop_sublist _ _).trans (List.take_sublist _ _)

/-- `LTRIM key 0 (n - 1)` keeps the `n` elements at the head. -/
lemma ltrim_oldest {n : ℤ} (hn : 1 ≤ n) (l : List α) : ltrim l 0 (n - 1) = l.take n.toNat := by
  have h : ¬n - 1 < 0 := by omega
  simp [ltrim, lrange, position, h]

/-- `LTRIM key 0 -1`, the case `n = 0` of the above, keeps everything. -/
lemma ltrim_oldest_zero (l : List α) : ltrim l 0 (0 - 1) = l := by
  simp [ltrim]

/-- Cutting to the head before a push changes nothing when the list is cut again after it. -/
lemma ltrim_ltrim_append {n : ℤ} (hn : 0 ≤ n) (l b : List α) :
    ltrim (ltrim l 0 (n - 1) ++ b) 0 (n - 1) = ltrim (l ++ b) 0 (n - 1) := by
  rcases hn.eq_or_lt with rfl | hpos
  · simp only [ltrim_oldest_zero]
  · simp only [ltrim_oldest hpos, ListWindow.take_take_append]

/-- `LTRIM key p -1` drops the `p` elements at the head. -/
lemma ltrim_drop (p : ℕ) (l : List α) : ltrim l p (-1) = l.drop p := by
  rw [ltrim, lrange, position_last, List.take_length, position_natCast]

lemma map_ltrim {β : Type*} (f : α → β) (l : List α) (start stop : ℤ) :
    (ltrim l start stop).map f = ltrim (l.map f) start stop := by
  simp [ltrim, lrange, List.map_drop, List.map_take]

end RedisList
