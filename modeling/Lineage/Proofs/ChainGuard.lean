import Lineage.Session

/-!
# Guards as lists of names

What a guard has let in is a list of names, one after the other: `Holds g names`. The next name is
refused as a cycle if it is in the list, refused for its depth if it is not and the list is full,
and let in otherwise. A new guard keeps such a list through any run of attempts, and a refused one
leaves no trace in it.
-/

namespace Lineage

/-- The most levels of a walk under a limit. -/
def levelBound : Option UInt32 → Nat
  | some limit => max 1 limit.toNat
  | none => UInt32.size - 1

theorem levelBound_pos (limit : Option UInt32) : 0 < levelBound limit := by
  cases limit with
  | none => decide
  | some k => exact Nat.le_max_left 1 k.toNat

/-- Under every limit the levels of a walk can be counted in a word. -/
theorem levelBound_le (limit : Option UInt32) : levelBound limit ≤ UInt32.size - 1 := by
  cases limit with
  | none => exact Nat.le_refl _
  | some k =>
    have hk : k.toNat < UInt32.size := k.toNat_lt_size
    show max 1 k.toNat ≤ UInt32.size - 1
    have hsize : UInt32.size = 4294967296 := rfl
    omega

theorem toNat_max_one (limit : UInt32) : (max 1 limit).toNat = max 1 limit.toNat := by
  have h : 1 ≤ limit ↔ 1 ≤ limit.toNat := UInt32.le_iff_toNat_le
  show (if 1 ≤ limit then limit else 1).toNat = _
  by_cases hl : 1 ≤ limit
  · rw [if_pos hl, Nat.max_eq_right (h.mp hl)]
  · have hlt : ¬ 1 ≤ limit.toNat := mt h.mpr hl
    rw [if_neg hl, Nat.max_eq_left (by omega)]
    rfl

namespace ChainGuard

/-- The guard has let in exactly `names`. -/
structure Holds (g : ChainGuard) (names : List String) : Prop where
  visited : ∀ name, g.isVisited name = true ↔ name ∈ names
  depth : g.depth = names.length

theorem holds_ofLimit (limit : Option UInt32) : (ofLimit limit).Holds [] := by
  cases limit <;> exact ⟨by simp [ofLimit, unbounded, new, isVisited], rfl⟩

/-- A session has raised its limit to 1 before the guard does. -/
theorem maxDepth_ofLimit (limit : Option UInt32) :
    (ofLimit (limit.map (max 1))).maxDepth = levelBound limit := by
  cases limit with
  | none => rfl
  | some k =>
    simp only [Option.map_some, ofLimit, new, levelBound, toNat_max_one]
    omega

theorem depth_of_entered {g g' : ChainGuard} {name : String}
    (h : g.enter name = (.entered, g')) : g'.depth = g.depth + 1 := by
  unfold enter at h
  split at h
  · cases h
  · split at h <;> cases h
    rfl

/-- Only a guard with room lets a name in, and its bound stays what it was. -/
theorem room_of_entered {g g' : ChainGuard} {name : String} (h : g.enter name = (.entered, g')) :
    g.depth < g.maxDepth ∧ g'.maxDepth = g.maxDepth := by
  unfold enter at h
  split at h
  · cases h
  · split at h <;> cases h
    exact ⟨by omega, rfl⟩

section
variable {g : ChainGuard} {names : List String} {name : String}

theorem Holds.enter_of_mem (h : g.Holds names) (hn : name ∈ names) :
    g.enter name = (.cycle, g) := by
  unfold enter
  rw [if_pos ((h.visited name).mpr hn)]

theorem Holds.enter_of_full (h : g.Holds names) (hn : name ∉ names)
    (hd : g.maxDepth ≤ names.length) : g.enter name = (.depthExceeded, g) := by
  unfold enter
  rw [if_neg (mt (h.visited name).mp hn), if_pos (h.depth ▸ hd)]

theorem Holds.enter_of_room (h : g.Holds names) (hn : name ∉ names)
    (hd : names.length < g.maxDepth) :
    ∃ g', g.enter name = (.entered, g') ∧ g'.Holds (names ++ [name]) ∧
      g'.maxDepth = g.maxDepth := by
  have hroom : ¬ g.maxDepth ≤ g.depth := by rw [h.depth]; omega
  unfold enter
  rw [if_neg (mt (h.visited name).mp hn), if_neg hroom]
  refine ⟨_, rfl, ⟨fun other => ?_, ?_⟩, rfl⟩
  · have hv := h.visited other
    unfold isVisited at hv ⊢
    simp only [Std.TreeSet.contains_insert, Bool.or_eq_true, beq_iff_eq, List.mem_append,
      Std.LawfulEqCmp.compare_eq_iff_eq, List.mem_singleton]
    rw [hv, or_comm, eq_comm (a := name)]
  · simp [h.depth]

/-- Everything that an attempt can come to. -/
theorem Holds.enter_cases (h : g.Holds names) (name : String) :
    name ∈ names ∧ g.enter name = (.cycle, g) ∨
      name ∉ names ∧ g.maxDepth ≤ names.length ∧ g.enter name = (.depthExceeded, g) ∨
      name ∉ names ∧ names.length < g.maxDepth ∧
        ∃ g', g.enter name = (.entered, g') ∧ g'.Holds (names ++ [name]) ∧
          g'.maxDepth = g.maxDepth := by
  by_cases hn : name ∈ names
  · exact .inl ⟨hn, h.enter_of_mem hn⟩
  · rcases Nat.lt_or_ge names.length g.maxDepth with hroom | hfull
    · exact .inr (.inr ⟨hn, hroom, h.enter_of_room hn hroom⟩)
    · exact .inr (.inl ⟨hn, hfull, h.enter_of_full hn hfull⟩)

theorem Holds.size_visited (h : g.Holds names) (hnodup : names.Nodup) :
    g.visited.size = names.length := by
  have hdistinct : g.visited.toList.Nodup :=
    Std.TreeSet.distinct_toList.imp fun hne heq =>
      hne (Std.LawfulEqCmp.compare_eq_iff_eq.mpr heq)
  have hmem : ∀ name, name ∈ g.visited.toList ↔ name ∈ names := fun name => by
    rw [Std.TreeSet.mem_toList, Std.TreeSet.mem_iff_contains]
    exact h.visited name
  rw [← Std.TreeSet.length_toList]
  exact ((List.perm_ext_iff_of_nodup hdistinct hnodup).mpr hmem).length_eq

end

/-! ## Runs of attempts -/

/-- Tries to step onto each name in turn, whatever came of the names before it. The answers are
kept with the names they were given to. -/
def enterAll (g : ChainGuard) : List String → List (String × ChainStep) × ChainGuard
  | [] => ([], g)
  | name :: names =>
    let (step, g) := g.enter name
    let (calls, g) := enterAll g names
    ((name, step) :: calls, g)

/-- The names that were let in. -/
def letIn (calls : List (String × ChainStep)) : List String :=
  (calls.filter (·.2.isEntered)).map (·.1)

/-- The guard holds the names, none of them twice and no more than it may. -/
structure Keeps (g : ChainGuard) (names : List String) : Prop extends g.Holds names where
  nodup : names.Nodup
  length_le : names.length ≤ g.maxDepth

theorem keeps_new (limit : UInt32) : (new limit).Keeps [] :=
  ⟨holds_ofLimit (some limit), List.nodup_nil, Nat.zero_le _⟩

section
variable {g : ChainGuard} {names : List String}

theorem count_letIn (calls : List (String × ChainStep)) (name : String) :
    (letIn calls).count name = calls.count (name, .entered) := by
  induction calls with
  | nil => rfl
  | cons call calls ih =>
    obtain ⟨other, step⟩ := call
    cases step <;> simp_all [letIn, ChainStep.isEntered, List.count_cons]

theorem mem_letIn {calls : List (String × ChainStep)} {name : String} :
    name ∈ letIn calls ↔ (name, .entered) ∈ calls := by
  rw [← List.count_pos_iff, count_letIn, List.count_pos_iff]

/-- One attempt keeps the account, whatever its answer is. -/
theorem Keeps.enter (h : g.Keeps names) (name : String) :
    (g.enter name).2.Keeps (names ++ letIn [(name, (g.enter name).1)]) ∧
      (g.enter name).2.maxDepth = g.maxDepth := by
  rcases h.enter_cases name with
    ⟨-, he⟩ | ⟨-, -, he⟩ | ⟨hn, hroom, g', he, hholds, hmax⟩
  · rw [he]
    exact ⟨(List.append_nil names).symm ▸ h, rfl⟩
  · rw [he]
    exact ⟨(List.append_nil names).symm ▸ h, rfl⟩
  · have hnodup : (names ++ [name]).Nodup := by
      refine List.nodup_append.mpr ⟨h.nodup, List.pairwise_singleton _ _, ?_⟩
      rintro a ha b hb rfl
      exact hn (List.mem_singleton.mp hb ▸ ha)
    have hlength : (names ++ [name]).length ≤ g'.maxDepth := by
      rw [List.length_append, List.length_singleton, hmax]
      omega
    rw [he]
    exact ⟨⟨hholds, hnodup, hlength⟩, hmax⟩

theorem Keeps.enterAll (h : g.Keeps names) (attempts : List String) :
    (g.enterAll attempts).2.Keeps (names ++ letIn (g.enterAll attempts).1) ∧
      (g.enterAll attempts).2.maxDepth = g.maxDepth := by
  induction attempts generalizing g names with
  | nil => exact ⟨(List.append_nil names).symm ▸ h, rfl⟩
  | cons name attempts ih =>
    obtain ⟨hstep, hmax⟩ := h.enter name
    obtain ⟨hrun, hmax'⟩ := ih hstep
    have hcalls : letIn (g.enterAll (name :: attempts)).1 =
        letIn [(name, (g.enter name).1)] ++ letIn ((g.enter name).2.enterAll attempts).1 := by
      rw [letIn, letIn, letIn, ← List.map_append, ← List.filter_append]
      rfl
    rw [hcalls, ← List.append_assoc]
    exact ⟨hrun, hmax'.trans hmax⟩

end

/-- A new guard that has answered any attempts has visited the names that it let in, each of them
once; its depth is their number and stays within the bound. Of the next attempt it refuses a name
that it let in before as a cycle, and any other for its depth if it is full; a refusal leaves it as
it was. -/
theorem enterAll_keeps_account (limit : UInt32) (attempts : List String) :
    let (calls, g) := (new limit).enterAll attempts
    let bound := max 1 limit.toNat
    (∀ name, calls.count (name, .entered) = if g.isVisited name then 1 else 0) ∧
      g.depth = g.visited.size ∧ g.depth ≤ bound ∧
      ∀ name,
        let (step, g') := g.enter name
        (step = .cycle ↔ (name, .entered) ∈ calls) ∧
          (step = .depthExceeded ↔ (name, .entered) ∉ calls ∧ g.depth = bound) ∧
          (step.isDenied = true → g' = g) := by
  obtain ⟨h, hmax⟩ := (keeps_new limit).enterAll attempts
  rw [List.nil_append] at h
  generalize (new limit).enterAll attempts = run at h hmax
  obtain ⟨calls, g⟩ := run
  have h : g.Keeps (letIn calls) := h
  have hmax : g.maxDepth = max 1 limit.toNat := hmax
  have hle := h.length_le
  refine ⟨fun name => ?_, ?_, ?_, fun name => ?_⟩
  · rw [← count_letIn, h.nodup.count]
    simp only [h.visited]
  · rw [h.depth, h.size_visited h.nodup]
  · rw [h.depth, ← hmax]
    exact hle
  · simp only [← mem_letIn, h.depth, ← hmax]
    rcases h.enter_cases name with ⟨hn, he⟩ | ⟨hn, hfull, he⟩ | ⟨hn, hroom, g', he, -⟩
    · simp [he, hn]
    · simp [he, hn]
      omega
    · simp [he, hn, ChainStep.isDenied, ChainStep.isEntered]
      omega

end ChainGuard

end Lineage
