import Lineage.Config
import Lineage.Proofs.CommandLine.Request

/-!
# Options over the configuration file

What is given on the command line counts before the configuration file, on whichever side of the
command it stands. Paths of the line start from the working directory and paths of the file from
the directory of the file.
-/

namespace Lineage

namespace Path

/-- What a path means in the directory `base`. From the root on it stands for itself. Otherwise it
goes on from `base`, behind a separator unless `base` is empty or ends with one. -/
inductive Joined : (base path joined : String) → Prop where
  | absolute {base rest : String} : Joined base ("/" ++ rest) ("/" ++ rest)
  | alone {path : String} (h : ∀ rest, path ≠ "/" ++ rest) : Joined "" path path
  | ended {dir path : String} (h : ∀ rest, path ≠ "/" ++ rest) :
    Joined (dir ++ "/") path (dir ++ "/" ++ path)
  | divided {base path : String} (h : ∀ rest, path ≠ "/" ++ rest) (hne : base ≠ "")
    (hopen : ∀ dir, base ≠ dir ++ "/") : Joined base path (base ++ "/" ++ path)

section
variable {base path : String}

theorem isAbsolute_iff : isAbsolute path = true ↔ ∃ rest, path = "/" ++ rest := by
  unfold isAbsolute
  constructor
  · intro h
    split at h
    · next cs hcs =>
      exact ⟨String.ofList cs, String.toList_inj.mp (by simp [hcs])⟩
    · cases h
  · rintro ⟨rest, rfl⟩
    rw [String.toList_append]
    rfl

theorem join_of_relative (h : ∀ rest, path ≠ "/" ++ rest) :
    join base path = base ++ divider base ++ path :=
  if_neg fun ha => (isAbsolute_iff.mp ha).elim h

theorem divider_ended (dir : String) : divider (dir ++ "/") = "" := by
  have hlast : (dir ++ "/").toList.getLast? = some '/' := by
    rw [String.toList_append]
    exact List.getLast?_concat
  rw [divider, hlast]
  rfl

theorem divider_open (hne : base ≠ "") (hopen : ∀ dir, base ≠ dir ++ "/") :
    divider base = "/" := by
  unfold divider
  split
  · next h => exact absurd (String.toList_eq_nil_iff.mp (List.getLast?_eq_none_iff.mp h)) hne
  · next h =>
    obtain ⟨cs, hcs⟩ := List.getLast?_eq_some_iff.mp h
    refine absurd (String.toList_inj.mp ?_) (hopen (String.ofList cs))
    rw [hcs, String.toList_append, String.toList_ofList]
    rfl
  · rfl

theorem joined_iff {joined : String} : Joined base path joined ↔ join base path = joined := by
  constructor
  · intro h
    cases h with
    | absolute => exact if_pos (isAbsolute_iff.mpr ⟨_, rfl⟩)
    | alone h =>
      rw [join_of_relative h, show divider "" = "" from rfl, String.empty_append,
        String.empty_append]
    | ended h => rw [join_of_relative h, divider_ended, String.append_empty]
    | divided h hne hopen => rw [join_of_relative h, divider_open hne hopen]
  · rintro rfl
    by_cases habs : ∃ rest, path = "/" ++ rest
    · obtain ⟨rest, rfl⟩ := habs
      rw [join, if_pos (isAbsolute_iff.mpr ⟨rest, rfl⟩)]
      exact .absolute
    have h := not_exists.mp habs
    rw [join_of_relative h]
    by_cases hne : base = ""
    · subst hne
      rw [show divider "" = "" from rfl, String.empty_append, String.empty_append]
      exact .alone h
    by_cases hended : ∃ dir, base = dir ++ "/"
    · obtain ⟨dir, rfl⟩ := hended
      rw [divider_ended, String.append_empty]
      exact .ended h
    · have hopen := not_exists.mp hended
      rw [divider_open hne hopen]
      exact .divided h hne hopen

end

end Path

namespace Options

open CommandLine

/-- The options are those of the line where it says something, then those of the file in
`configDir`, then the defaults. -/
structure Follow (l : Line) (config : Config) (configDir workDir : String) (o : Options) :
    Prop where
  index_given : ∀ path, l.text? .index = some path → Path.Joined workDir path o.index
  index_config : l.text? .index = none → ∀ path, config.index = some path →
    Path.Joined configDir path o.index
  scope_given : ∀ text, l.text? .scope = some text → ScopeText text o.scope
  scope_config : l.text? .scope = none → ∀ scope, config.scope = some scope → o.scope = scope
  scope_default : l.text? .scope = none → config.scope = none → o.scope = .projectAndLibraries
  limit_given : ∀ text, l.text? .limit = some text → ∃ k, LimitText text k ∧ o.limit = some k
  limit_config : l.text? .limit = none → o.limit = config.limit
  caseSensitive : o.caseSensitive = false ↔
    l.Raises .ignoreCase ∨ config.caseSensitive = some false

section
variable {l : Line} {r : Request} {config : Config} {configDir workDir : String}

theorem resolve?_eq_none_iff (hl : l.Fits) (h : l.request? = some r) :
    resolve? r.settings config configDir workDir = none ↔
      l.text? .index = none ∧ config.index = none := by
  have hindex : r.settings.index = none ↔ l.text? .index = none := by
    constructor
    · intro hnone
      by_contra hne
      obtain ⟨text, ht⟩ := Option.ne_none_iff_exists'.mp hne
      obtain ⟨path, -, hv⟩ : ∃ v, PathText text v ∧ r.settings.index = some v :=
        hl.value_of_text?_some h ht
      rw [hnone] at hv
      cases hv
    · exact Line.value_of_text?_none h
  rw [resolve?, index?, Option.map_eq_none_iff, Option.or_eq_none_iff, Option.map_eq_none_iff,
    Option.map_eq_none_iff, hindex]

theorem follow_of_resolve? (hl : l.Fits) (h : l.request? = some r) {o : Options}
    (ho : resolve? r.settings config configDir workDir = some o) :
    Follow l config configDir workDir o := by
  obtain ⟨index, hindex, rfl⟩ := Option.map_eq_some_iff.mp ho
  unfold index? at hindex
  constructor
  case index_given =>
    intro path ht
    obtain ⟨_, ⟨hpath⟩, hv⟩ : ∃ v, PathText path v ∧ r.settings.index = some v :=
      hl.value_of_text?_some h ht
    rw [hv] at hindex
    exact Path.joined_iff.mpr (Option.some.inj hindex)
  case index_config =>
    intro ht path hpath
    have hv : r.settings.index = none := Line.value_of_text?_none h ht
    rw [hv, hpath] at hindex
    exact Path.joined_iff.mpr (Option.some.inj hindex)
  case scope_given =>
    intro text ht
    obtain ⟨v, hmeans, hv⟩ : ∃ v, ScopeText text v ∧ r.settings.scope = some v :=
      hl.value_of_text?_some h ht
    show ScopeText text ((r.settings.scope.or config.scope).getD .projectAndLibraries)
    rw [hv]
    exact hmeans
  case scope_config =>
    intro ht scope hscope
    have hv : r.settings.scope = none := Line.value_of_text?_none h ht
    show (r.settings.scope.or config.scope).getD .projectAndLibraries = scope
    rw [hv, hscope]
    rfl
  case scope_default =>
    intro ht hscope
    have hv : r.settings.scope = none := Line.value_of_text?_none h ht
    show (r.settings.scope.or config.scope).getD .projectAndLibraries = .projectAndLibraries
    rw [hv, hscope]
    rfl
  case limit_given =>
    intro text ht
    obtain ⟨v, hmeans, hv⟩ : ∃ v, LimitText text v ∧ r.settings.limit = some v :=
      hl.value_of_text?_some h ht
    refine ⟨v, hmeans, ?_⟩
    show r.settings.limit.or config.limit = some v
    rw [hv, Option.some_or]
  case limit_config =>
    intro ht
    have hv : r.settings.limit = none := Line.value_of_text?_none h ht
    show r.settings.limit.or config.limit = config.limit
    rw [hv, Option.none_or]
  case caseSensitive =>
    have hflag : r.settings.ignoreCase = true ↔ l.Raises .ignoreCase :=
      Line.flag_of_request? h (f := .ignoreCase)
    rw [← hflag]
    show (!r.settings.ignoreCase && config.caseSensitive.getD true) = false ↔ _
    rcases r.settings.ignoreCase with _ | _ <;> rcases config.caseSensitive with _ | _ | _ <;> simp

end

/-- What is given on the command line overrides the configuration file, wherever it stands. The
words of a line that fits are a request, and no others are. Moving an option to the other side
changes nothing of what the line asks for. -/
theorem given_overrides_config {words : List String} {r : Request}
    (h : Request.ofWords words = .ok r) :
    (∃ l : Line, l.Fits ∧ l.words = words) ∧
    (∀ l : Line, l.Fits → ∃ r, Request.ofWords l.words = .ok r) ∧
    ∀ l : Line, l.Fits → l.words = words →
      (∀ config configDir workDir,
        (resolve? r.settings config configDir workDir = none ↔
          l.text? .index = none ∧ config.index = none) ∧
        ∀ o, resolve? r.settings config configDir workDir = some o →
          Follow l config configDir workDir o) ∧
      ∀ m : Line, l.Lowers m ∨ m.Lowers l → Request.ofWords m.words = .ok r := by
  obtain ⟨l, hl, hwords, -⟩ := Request.ofWords_eq_ok_iff.mp h
  refine ⟨⟨l, hl, hwords⟩, fun m hm => ?_, ?_⟩
  · obtain ⟨r', hr'⟩ := hm.exists_request
    exact ⟨r', Request.ofWords_eq_ok_iff.mpr ⟨m, hm, rfl, hr'⟩⟩
  rintro l hl rfl
  have hrequest := hl.request?_of_ofWords h
  refine ⟨fun config configDir workDir =>
    ⟨resolve?_eq_none_iff hl hrequest, fun o => follow_of_resolve? hl hrequest⟩, ?_⟩
  rintro m (hlm | hml)
  · have hm := hlm.fits_iff_fits.mp hl
    exact Request.ofWords_eq_ok_iff.mpr ⟨m, hm, rfl, (hlm.request?_eq hl).trans hrequest⟩
  · have hm := hml.fits_iff_fits.mpr hl
    exact Request.ofWords_eq_ok_iff.mpr ⟨m, hm, rfl, (hml.request?_eq hm).symm.trans hrequest⟩

/-- A line with a scope on both sides of its command. -/
def twoSided : Line where
  before := [.apart .scope (.long "scope") "project", .apart .limit (.long "maxChainDepth") "7"]
  command := .complete
  after := [.apart .index (.long "index") "a.json", .word "Foo", .equals .scope "scope" "all",
    .flag .ignoreCase "ignore-case", .attached .config 'c' true "n.json"]

theorem fits_twoSided : twoSided.Fits where
  before := by decide
  after := by decide
  outer :=
    have h : twoSided.outer.foldlM Given.apply {} =
        .ok { scope := some .project, limit := some 7 } := by
      decide +kernel
    (Given.foldlM_apply.mp h).1
  inner :=
    have h : twoSided.inner.foldlM Given.apply {} =
        .ok { config := some "n.json", index := some "a.json",
              scope := some .projectAndLibraries, ignoreCase := true } := by
      decide +kernel
    (Given.foldlM_apply.mp h).1
  arity := rfl

/-- The inner scope counts, nothing is the file's, and the index may as well be named before the
command. -/
theorem given_overrides_config_twoSided :
    let config : Config :=
      { index := some "b.json", scope := some .project, limit := some 3,
        caseSensitive := some true }
    let r : Request :=
      { settings :=
          { config := some "n.json", index := some "a.json", scope := some .projectAndLibraries,
            limit := some 7, ignoreCase := true }
        query := .complete "Foo" "" false }
    twoSided.words = ["--scope", "project", "--maxChainDepth", "7", "complete", "--index",
      "a.json", "Foo", "--scope=all", "--ignore-case", "-c=n.json"] ∧
    Request.ofWords twoSided.words = .ok r ∧
    Follow twoSided config "/conf" "/work" ⟨"/work/a.json", .projectAndLibraries, some 7, false⟩ ∧
    Request.ofWords ["--scope", "project", "--maxChainDepth", "7", "--index", "a.json", "complete",
      "Foo", "--scope=all", "--ignore-case", "-c=n.json"] = .ok r := by
  intro config r
  have h : Request.ofWords twoSided.words = .ok r := by decide +kernel
  obtain ⟨-, -, hline⟩ := given_overrides_config h
  obtain ⟨hresolve, hmove⟩ := hline twoSided fits_twoSided rfl
  refine ⟨by decide +kernel, h, (hresolve config "/conf" "/work").2 _ (by decide +kernel), ?_⟩
  let i : Item := .apart .index (.long "index") "a.json"
  let b : List Item :=
    [.apart .scope (.long "scope") "project", .apart .limit (.long "maxChainDepth") "7"]
  let a : List Item :=
    [.word "Foo", .equals .scope "scope" "all", .flag .ignoreCase "ignore-case",
      .attached .config 'c' true "n.json"]
  have hup : Line.Lowers ⟨b ++ i :: [], .complete, [] ++ a, none⟩
      ⟨b ++ [], .complete, [] ++ i :: a, none⟩ :=
    .item rfl (fun _ => trivial) (by decide) (by decide)
  exact hmove _ (.inr hup)

end Options

end Lineage
