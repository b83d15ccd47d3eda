import AscendAI.AudioScribe.ChunkedTranscription

/-!
# The order of the pieces

The chunker gets the order of the pieces back from their names. Up to 100000 pieces the names sort as the
pieces follow each other in time; with more of them, the first 10001 pieces come first and then the piece 100000.
-/

namespace AscendAI.AudioScribe
open PaddedNumber PosixPath StableSort

/-! ### Sorting the names -/

section Sorting

variable {α : Type*} [LinearOrder α]

/-- A list that counts up is the sorted form of its permutations. -/
lemma sortBy_eq_of_pairwise {l l' : List α} (hperm : l.Perm l') (hl' : l'.Pairwise (· < ·)) : sortBy id l = l' := by
  have hsorted : (sortBy id l).Pairwise (· ≤ ·) := pairwise_key_sortBy id l
  exact ((sortBy_perm id l).trans hperm).eq_of_pairwise' hsorted (hl'.imp le_of_lt)

/-- What counts up and is below all the rest comes first. -/
lemma sortBy_append {l first rest : List α} (hperm : l.Perm (first ++ rest)) (hfirst : first.Pairwise (· < ·))
    (hbelow : ∀ a ∈ first, ∀ b ∈ rest, a < b) : sortBy id l = first ++ sortBy id rest := by
  have hsorted : (sortBy id l).Pairwise (· ≤ ·) := pairwise_key_sortBy id l
  have hrest : (sortBy id rest).Pairwise (· ≤ ·) := pairwise_key_sortBy id rest
  have hperm' : (sortBy id l).Perm (first ++ sortBy id rest) :=
    ((sortBy_perm id l).trans hperm).trans ((sortBy_perm id rest).symm.append_left first)
  refine hperm'.eq_of_pairwise' hsorted (List.pairwise_append.mpr ⟨hfirst.imp le_of_lt, hrest, ?_⟩)
  intro a ha b hb
  exact (hbelow a ha b ((sortBy_perm id rest).mem_iff.mp hb)).le

/-- Nothing in a sorted list is below its head. -/
lemma head?_sortBy_le {l : List α} {a b : α} (hhead : (sortBy id l).head? = some a) (hb : b ∈ l) : a ≤ b := by
  have hsorted : (sortBy id l).Pairwise (· ≤ ·) := pairwise_key_sortBy id l
  have hmem := (sortBy_perm id l).mem_iff.mpr hb
  cases hlist : sortBy id l with
  | nil =>
    rw [hlist] at hmem
    cases hmem
  | cons first rest =>
    rw [hlist] at hhead hmem hsorted
    obtain rfl := Option.some.inj hhead
    rcases List.mem_cons.mp hmem with rfl | hmem
    · exact le_rfl
    · exact (List.pairwise_cons.mp hsorted).1 b hmem

end Sorting

lemma toList_chunkName (i : ℕ) : (chunkName i).toList = "chunk_".toList ++ (padded 5 i ++ '.' :: "wav".toList) := by
  simp [chunkName]

/-- Names compare as their numbers, where the first one is at most 10000 or the second one has five digits. -/
lemma chunkName_lt {i j : ℕ} (h : i < j) (hi : i ≤ 10000 ∨ j < 100000) (dir : String) :
    dir ++ chunkName i < dir ++ chunkName j := by
  rw [String.lt_iff, String.toList_append, String.toList_append, toList_chunkName, toList_chunkName]
  apply List.append_left_lt
  apply List.append_left_lt
  exact padded_append_lt h hi (by decide) _ _

/-- The first name with six digits comes before the second one that fills the width. -/
lemma chunkName_pow_lt (dir : String) : dir ++ chunkName 100000 < dir ++ chunkName 10001 := by
  rw [String.lt_iff, String.toList_append, String.toList_append, toList_chunkName, toList_chunkName]
  apply List.append_left_lt
  apply List.append_left_lt
  exact padded_pow_append_lt 4 _ _

/-! ### The pieces of an audio file -/

def piecePath (chunker : AudioChunker) (i : ℕ) : String := joinPath chunker.workDir (chunkName i)

/-- The pieces in the order of time. -/
def pieces (chunker : AudioChunker) (count : ℕ) : List String := (List.range count).map (piecePath chunker)

/-- The segment muxer cuts the audio into so many pieces, one after the other, and names them by their numbers; the
directory lists them in any order. -/
structure AudioChunker.Cuts (chunker : AudioChunker) (audio : String) (chunkSeconds : ℤ) (count : ℕ) : Prop where
  pos : 0 < count
  names : ∃ names, chunker.segment audio chunkSeconds = .ok names ∧ names.Perm ((List.range count).map chunkName)

/-- The chunks up to the first one that fails, which is the last one that a backend comes to. -/
def throughFirst (fails : String → Bool) : List String → List String
  | [] => []
  | path :: paths => if fails path then [path] else path :: throughFirst fails paths

lemma piecePath_eq (chunker : AudioChunker) : ∃ dir, ∀ i, piecePath chunker i = dir ++ chunkName i := by
  have hhead : ∀ i, (chunkName i).toList.head? ≠ some '/' := by
    intro i
    rw [toList_chunkName]
    exact (by decide : some 'c' ≠ some '/')
  by_cases hdir : chunker.workDir = "" ∨ chunker.workDir.toList.getLast? = some '/'
  · exact ⟨chunker.workDir, fun i => by rw [piecePath, joinPath, if_neg (hhead i), if_pos hdir]⟩
  · exact ⟨chunker.workDir ++ "/", fun i => by rw [piecePath, joinPath, if_neg (hhead i), if_neg hdir]⟩

lemma piecePath_lt (chunker : AudioChunker) {i j : ℕ} (h : i < j) (hi : i ≤ 10000 ∨ j < 100000) :
    piecePath chunker i < piecePath chunker j := by
  obtain ⟨dir, hdir⟩ := piecePath_eq chunker
  rw [hdir, hdir]
  exact chunkName_lt h hi dir

lemma piecePath_pow_lt (chunker : AudioChunker) : piecePath chunker 100000 < piecePath chunker 10001 := by
  obtain ⟨dir, hdir⟩ := piecePath_eq chunker
  rw [hdir, hdir]
  exact chunkName_pow_lt dir

lemma pieces_eq_append (chunker : AudioChunker) {k count : ℕ} (h : k ≤ count) :
    pieces chunker count = pieces chunker k ++ (List.range' k (count - k)).map (piecePath chunker) := by
  have hsplit : List.range count = List.range k ++ List.range' k (count - k) := by
    have happend : List.range' 0 k ++ List.range' (0 + k) (count - k) = List.range' 0 (k + (count - k)) :=
      List.range'_append_1
    rw [Nat.zero_add, Nat.add_sub_cancel' h] at happend
    rw [List.range_eq_range', List.range_eq_range', happend]
  rw [pieces, hsplit, List.map_append, pieces]

lemma pairwise_pieces (chunker : AudioChunker) {count : ℕ} (h : count ≤ 100000) :
    (pieces chunker count).Pairwise (· < ·) := by
  rw [pieces, List.pairwise_map]
  apply List.pairwise_lt_range.imp_of_mem
  intro i j hi hj hlt
  exact piecePath_lt chunker hlt (.inr ((List.mem_range.mp hj).trans_le h))

section Cuts

variable {settings : TranscriptionSettings} {chunker : AudioChunker} {audio : String} {chunkSeconds : ℤ} {count : ℕ}

lemma chunkedAudio_of_cuts (settings : TranscriptionSettings) (h : chunker.Cuts audio chunkSeconds count) :
    ∃ paths, paths.Perm (pieces chunker count) ∧
      chunkedAudio settings chunker audio chunkSeconds = .ok (sortBy id paths) := by
  obtain ⟨names, hnames, hperm⟩ := h.names
  have hwav : names.filter (fun name => ".wav".toList.isSuffixOf name.toList) = names := by
    rw [List.filter_eq_self]
    intro name hname
    obtain ⟨i, -, rfl⟩ := List.mem_map.mp (hperm.mem_iff.mp hname)
    rw [List.isSuffixOf_iff_suffix, toList_chunkName]
    exact ⟨"chunk_".toList ++ padded 5 i, by simp⟩
  have hpaths : (names.map (joinPath chunker.workDir)).Perm (pieces chunker count) := by
    have hmap := hperm.map (joinPath chunker.workDir)
    rw [List.map_map] at hmap
    exact hmap
  refine ⟨names.map (joinPath chunker.workDir), hpaths, ?_⟩
  have hnonempty : (sortBy id (names.map (joinPath chunker.workDir))).isEmpty = false := by
    have hlength := ((sortBy_perm id _).trans hpaths).length_eq
    rw [pieces, List.length_map, List.length_range] at hlength
    rw [List.isEmpty_eq_false_iff, ← List.length_pos_iff, hlength]
    exact h.pos
  simp only [chunkedAudio, hnames, hwav, hnonempty, Bool.false_eq_true, if_false]

/-- Up to 100000 pieces the chunks come in the order of time. -/
lemma sortBy_pieces_of_le {paths : List String} (hperm : paths.Perm (pieces chunker count))
    (h : count ≤ 100000) : sortBy id paths = pieces chunker count :=
  sortBy_eq_of_pairwise hperm (pairwise_pieces chunker h)

/-- With more pieces the first 10001 come in the order of time, and another than the next one follows. -/
lemma sortBy_pieces_of_lt {paths : List String} (hperm : paths.Perm (pieces chunker count)) (h : 100000 < count) :
    ∃ next rest, sortBy id paths = pieces chunker 10001 ++ next :: rest ∧ next ≠ piecePath chunker 10001 := by
  have hall := hperm
  rw [pieces_eq_append chunker (by omega : 10001 ≤ count)] at hall
  have hbelow : ∀ a ∈ pieces chunker 10001,
      ∀ b ∈ (List.range' 10001 (count - 10001)).map (piecePath chunker), a < b := by
    intro a ha b hb
    obtain ⟨i, hi, rfl⟩ := List.mem_map.mp ha
    obtain ⟨j, hj, rfl⟩ := List.mem_map.mp hb
    rw [List.mem_range] at hi
    rw [List.mem_range'_1] at hj
    exact piecePath_lt chunker (by omega) (.inl (by omega))
  have hsort := sortBy_append hall (pairwise_pieces chunker (by omega)) hbelow
  have hmem : piecePath chunker 100000 ∈ (List.range' 10001 (count - 10001)).map (piecePath chunker) := by
    apply List.mem_map_of_mem
    rw [List.mem_range'_1]
    omega
  cases hrest : sortBy id ((List.range' 10001 (count - 10001)).map (piecePath chunker)) with
  | nil =>
    have hempty := (sortBy_perm id _).mem_iff.mpr hmem
    rw [hrest] at hempty
    cases hempty
  | cons next rest =>
    rw [hrest] at hsort
    refine ⟨next, rest, hsort, ?_⟩
    rintro rfl
    have hle := head?_sortBy_le (by rw [hrest]; rfl) hmem
    exact absurd (piecePath_pow_lt chunker) (not_lt.mpr hle)

end Cuts

/-! ### The loop over the chunks -/

section Loop

variable {σ : Type*} {chunk : ℕ → String → σ → Except TranscriptionError σ} {fails : String → Bool}

lemma throughFirst_append (fails : String → Bool) (a b : List String) :
    throughFirst fails (a ++ b) = if a.any fails then throughFirst fails a else a ++ throughFirst fails b := by
  induction a with
  | nil => rfl
  | cons path a ih =>
    rw [List.cons_append, throughFirst, throughFirst, ih, List.any_cons]
    cases fails path with
    | true => simp
    | false => cases a.any fails <;> simp

/-- A loop comes to the chunks up to the first one that fails. -/
lemma overChunks_processed (hfails : ∀ i path state, fails path = !(chunk i path state).isOk) (i : ℕ)
    (processed : List String) (state : σ) (paths : List String) :
    (overChunks chunk i processed state paths).processed = processed ++ throughFirst fails paths := by
  induction paths generalizing i processed state with
  | nil => rw [overChunks, throughFirst, List.append_nil]
  | cons path paths ih =>
    have hpath := hfails i path state
    rw [overChunks, throughFirst, hpath]
    cases hchunk : chunk i path state with
    | error error => rfl
    | ok state' =>
      have hlater := ih (i + 1) (processed ++ [path]) state'
      rw [List.append_assoc] at hlater
      exact hlater

/-- The rounds over chunks that succeed add up. -/
lemma overChunks_append {add : ℕ → σ → σ} {p : ℕ → String} (more : List String) (k : ℕ) {i : ℕ}
    (hok : ∀ j, i ≤ j → j < i + k → ∀ state, chunk j (p j) state = .ok (add j state)) (processed : List String)
    (state : σ) : overChunks chunk i processed state ((List.range' i k).map p ++ more) =
      overChunks chunk (i + k) (processed ++ (List.range' i k).map p)
        ((List.range' i k).foldl (fun state j => add j state) state) more := by
  induction k generalizing i processed state with
  | zero => simp
  | succ k ih =>
    rw [List.range'_succ, List.map_cons, List.cons_append, overChunks, hok i le_rfl (by omega)]
    have hlater := ih (i := i + 1) (fun j hj hlt => hok j (by omega) (by omega)) (processed ++ [p i]) (add i state)
    rw [Nat.add_right_comm] at hlater
    simp only [List.append_assoc, List.singleton_append, List.foldl_cons] at hlater ⊢
    exact hlater

/-- The pieces are few enough for their names, or the loop ends before that matters. -/
def InReach (chunker : AudioChunker) (fails : String → Bool) (count : ℕ) : Prop :=
  count ≤ 100000 ∨ ∃ i < 10001, fails (piecePath chunker i) = true

variable {chunker : AudioChunker} {count : ℕ} {paths : List String}

lemma any_pieces_iff {k : ℕ} : (pieces chunker k).any fails = true ↔ ∃ i < k, fails (piecePath chunker i) = true := by
  simp [pieces]

/-- The loop comes to the pieces in the order of time exactly when they are in reach. -/
lemma throughFirst_sortBy_iff (hperm : paths.Perm (pieces chunker count)) :
    throughFirst fails (sortBy id paths) = throughFirst fails (pieces chunker count) ↔
      InReach chunker fails count := by
  by_cases hcount : count ≤ 100000
  · exact iff_of_true (by rw [sortBy_pieces_of_le hperm hcount]) (.inl hcount)
  obtain ⟨next, rest, hsort, hnext⟩ := sortBy_pieces_of_lt hperm (not_le.mp hcount)
  rw [InReach, or_iff_right hcount, ← any_pieces_iff, hsort, pieces_eq_append chunker (by omega : 10001 ≤ count),
    throughFirst_append, throughFirst_append]
  cases hany : (pieces chunker 10001).any fails with
  | true => simp
  | false =>
    have hcount' : count - 10001 = (count - 10002) + 1 := by omega
    rw [if_neg Bool.false_ne_true, if_neg Bool.false_ne_true, List.append_cancel_left_eq, hcount', List.range'_succ,
      List.map_cons, throughFirst, throughFirst]
    refine iff_of_false (fun h => hnext ?_) Bool.false_ne_true
    split_ifs at h <;> exact (List.cons.inj h).1

end Loop

end AscendAI.AudioScribe
