import Lineage.Proofs.Index
import Lineage.Proofs.Session.Calls
import Lineage.Proofs.Session.Operation

/-!
# The accounts of a session

The counters of a session, its memory and its log tell of the same calls for classes: the memory
holds what every call was given, each class was looked up in the catalog by the first call for it
and logged then, and every other call was answered from the memory.
-/

namespace Lineage.Session

/-- The classes whose look-ups the log tells of, one after the other. -/
def told (s : Session) : List String := s.log.toList.filterMap Event.lookedUp?

/-- The session after the catalog has been asked for a class. -/
def learn (s : Session) (name : String) (node : Option TypeNode) : Session :=
  { s with
    memo := s.memo.insert name node
    stats.classLookups := s.stats.classLookups + 1
    log := s.log.push (.classLookup name node.isSome) }

section
variable (s : Session) (name : String) (node : Option TypeNode)

theorem told_learn : (s.learn name node).told = s.told ++ [name] := by
  simp [learn, told, Event.lookedUp?]

theorem mem_memo_learn (other : String) :
    other ∈ (s.learn name node).memo ↔ other ∈ s.memo ∨ other = name := by
  rw [learn, Std.TreeMap.mem_insert, Std.LawfulEqCmp.compare_eq_iff_eq, or_comm, eq_comm]

theorem size_memo_learn (h : name ∉ s.memo) :
    (s.learn name node).memo.size = s.memo.size + 1 := by
  rw [learn, Std.TreeMap.size_insert, if_neg]
  exact h

end

/-- The books of a session that has made the calls `made` balance. -/
structure Accounts (s : Session) (made : List Call) : Prop where
  asked : made.flatMap Call.asked = s.told.map fun name => (name, s.scope)
  own : ∀ c ∈ made, c.asked = [] ∨ c.asked = [(c.name, s.scope)]
  nodup : s.told.Nodup
  mem_told : ∀ name, name ∈ s.told ↔ name ∈ s.memo
  mem_memo : ∀ name, name ∈ s.memo ↔ name ∈ made.map Call.name
  size : s.memo.size = s.told.length
  lookups : s.stats.classLookups = s.told.length
  total : s.stats.classLookups + s.stats.memoHits = made.length

theorem accounts_start (c : Catalog) (x : Context) (limit : Option UInt32) :
    (start c x limit).Accounts [] := by
  constructor <;> simp [start, Session.told]

/-! ## One call -/

section
variable {s : Session} {made : List Call} {c : Call}

theorem mem_map_name_append (name : String) :
    name ∈ (made ++ [c]).map Call.name ↔ name ∈ made.map Call.name ∨ name = c.name := by
  simp

/-- The books after a call that the memory answers. -/
theorem Accounts.hit (h : s.Accounts made) (ha : c.asked = []) (hc : c.name ∈ s.memo) :
    Accounts { s with stats.memoHits := s.stats.memoHits + 1 } (made ++ [c]) where
  asked := by
    rw [List.flatMap_append, List.flatMap_singleton, ha, List.append_nil]
    exact h.asked
  own := List.forall_mem_append.mpr ⟨h.own, List.forall_mem_singleton.mpr (.inl ha)⟩
  nodup := h.nodup
  mem_told := h.mem_told
  mem_memo name := by
    rw [mem_map_name_append, ← h.mem_memo, iff_self_or]
    rintro rfl
    exact hc
  size := h.size
  lookups := h.lookups
  total := by rw [List.length_append, List.length_singleton, ← h.total, Nat.add_assoc]

/-- The books after a call that the catalog answers. -/
theorem Accounts.miss (h : s.Accounts made) (ha : c.asked = [(c.name, s.scope)])
    (hc : c.name ∉ s.memo) (node : Option TypeNode) :
    (s.learn c.name node).Accounts (made ++ [c]) where
  asked := by
    rw [List.flatMap_append, List.flatMap_singleton, ha, told_learn, List.map_append, h.asked]
    rfl
  own := List.forall_mem_append.mpr ⟨h.own, List.forall_mem_singleton.mpr (.inr ha)⟩
  nodup := by
    have hnew : ∀ name ∈ s.told, name ≠ c.name := by
      rintro name hn rfl
      exact hc ((h.mem_told c.name).mp hn)
    rw [told_learn, List.nodup_append]
    exact ⟨h.nodup, by simp, by simpa using hnew⟩
  mem_told name := by
    rw [told_learn, mem_memo_learn, List.mem_append, h.mem_told, List.mem_singleton]
  mem_memo name := by rw [mem_memo_learn, mem_map_name_append, h.mem_memo]
  size := by rw [told_learn, size_memo_learn _ _ _ hc, h.size, List.length_append]; rfl
  lookups := by rw [told_learn, List.length_append, ← h.lookups]; rfl
  total := by
    rw [List.length_append, List.length_singleton, ← h.total]
    exact Nat.add_right_comm _ _ _

theorem Accounts.resolveClass (h : s.Accounts made) (name : String) :
    (s.resolveClass name).2.Accounts (made ++ [s.call name]) := by
  rw [call_eq, resolveClass_eq]
  cases hm : s.memo[name]? with
  | some known =>
    have hc : name ∈ s.memo := by
      rw [← Std.TreeMap.isSome_getElem?_iff_mem, hm, Option.isSome_some]
    rw [if_pos hc]
    exact h.hit rfl hc
  | none =>
    have hc : name ∉ s.memo := by
      rw [← Std.TreeMap.isSome_getElem?_iff_mem, hm]
      exact Bool.false_ne_true
    rw [if_neg hc]
    exact h.miss (c := ⟨name, _, [(name, s.scope)]⟩) rfl hc _

theorem Accounts.callAll (h : s.Accounts made) (names : List String) :
    (s.callAll names).2.Accounts (made ++ (s.callAll names).1) := by
  induction names generalizing s made with
  | nil =>
    rw [Session.callAll, List.append_nil]
    exact h
  | cons name names ih =>
    have h' := ih (h.resolveClass name)
    rwa [List.append_assoc] at h'

theorem told_bare (s : Session) : s.bare.told = s.told := by
  have hfun : (fun e : Event => if e.lookedUp?.isSome then e.lookedUp? else none) =
      Event.lookedUp? := by
    funext e
    cases e.lookedUp? <;> rfl
  rw [Session.told, bare, Array.toList_filter, List.filterMap_filter, hfun, Session.told]

theorem Accounts.of_bare (h : s.bare.Accounts made) : s.Accounts made where
  asked := by rw [← told_bare]; exact h.asked
  own := h.own
  nodup := by rw [← told_bare]; exact h.nodup
  mem_told := by rw [← told_bare]; exact h.mem_told
  mem_memo := h.mem_memo
  size := by rw [← told_bare]; exact h.size
  lookups := by rw [← told_bare]; exact h.lookups
  total := h.total

end

/-- The books of every session balance. -/
theorem accounts_performAll (c : Catalog) (x : Context) (limit : Option UInt32)
    (ops : List Operation) :
    ((start c x limit).performAll ops).Accounts ((start c x limit).callsAll ops) := by
  have hreplay := (makes_performAll (start c x limit) ops).replay
  have hbare : (start c x limit).bare = start c x limit := by simp [start, bare]
  rw [hbare] at hreplay
  have h := (accounts_start c x limit).callAll (((start c x limit).callsAll ops).map Call.name)
  rw [hreplay] at h
  exact h.of_bare

/-- The memory, the counters and the log of a session agree on the calls that it has made, besides
which it has made none (`makes_performAll`), and on what these have asked of the catalog. No class
is asked for twice: whatever the catalog says by now, a class that has been called for is known as
the index had it. -/
theorem accounts_balance (ix : Index) (x : Context) (limit : Option UInt32)
    (ops : List Operation) :
    let fresh := start ix.catalog x limit
    let s := fresh.performAll ops
    let made := fresh.callsAll ops
    (∀ name, s.memo[name]? =
      if name ∈ made.map Call.name then some ((ix.class? name x.scope).map .ofRecord)
      else none) ∧
    (∀ (other : Catalog) (name : String), (resolveClass { s with catalog := other } name).1 =
      if name ∈ made.map Call.name then (ix.class? name x.scope).map .ofRecord
      else (other.class? name x.scope).map .ofRecord) ∧
    s.stats.classLookups = s.memo.size ∧
    s.stats.classLookups = (made.flatMap Call.asked).length ∧
    s.stats.classLookups = s.told.length ∧
    made.flatMap Call.asked = s.told.map (fun name => (name, x.scope)) ∧ s.told.Nodup ∧
    (∀ c ∈ made, c.asked = [] ∨ c.asked = [(c.name, x.scope)]) ∧
    s.stats.classLookups + s.stats.memoHits = made.length ∧
    s.stats.superHops ≤ made.countP (·.node.isSome) := by
  intro fresh s made
  have h : s.Accounts made := accounts_performAll ix.catalog x limit ops
  have hserves : s.Serves ix.catalog x limit := (serves_start _ _ _).performAll ops
  have hscope : s.scope = x.scope := congrArg Context.scope hserves.context
  have hmemo : ∀ name, s.memo[name]? =
      if name ∈ made.map Call.name then some ((ix.class? name x.scope).map .ofRecord)
      else none := by
    intro name
    split
    · next hname =>
      rw [← h.mem_memo, ← Std.TreeMap.isSome_getElem?_iff_mem, Option.isSome_iff_exists] at hname
      obtain ⟨node, hnode⟩ := hname
      rw [hnode, hserves.memo name node hnode]
      rfl
    · next hname =>
      rw [← h.mem_memo] at hname
      exact Std.TreeMap.getElem?_eq_none hname
  rw [← hscope]
  refine ⟨hscope ▸ hmemo, fun other name => ?_, ?_, ?_, h.lookups, h.asked, h.nodup, h.own, h.total,
    ?_⟩
  · have hknown : ({ s with catalog := other } : Session).memo[name]? = s.memo[name]? := rfl
    have hother : ({ s with catalog := other } : Session).scope = s.scope := rfl
    rw [resolveClass_eq, hknown, hmemo, ← hscope, hother]
    by_cases hname : name ∈ made.map Call.name
    · rw [if_pos hname, if_pos hname]
    · rw [if_neg hname, if_neg hname]
  · rw [h.lookups, h.size]
  · rw [h.lookups, h.asked, List.length_map]
  · have hhops := (makes_performAll fresh ops).hops
    rwa [show fresh.stats.superHops = 0 from rfl, Nat.zero_add] at hhops

/-- In a loop of two classes the second hop leads back to the root, and the parent of the root is
known by then. -/
example :
    let fresh := start Index.loop.catalog ⟨0, .project⟩
    let root := Root.node (.declared "A" (some "B"))
    let ops := [Operation.superChain root, .superType root]
    (fresh.callsAll ops).map (fun c => (c.name, c.asked)) =
        [("B", [("B", .project)]), ("A", [("A", .project)]), ("B", [])] ∧
      (fresh.performAll ops).stats = ⟨2, 2, 1⟩ := by
  decide +kernel

end Lineage.Session
