import MappingTables.Proofs.Artifact.StoredTable
import MappingTables.Proofs.Artifact.WorkingDirectory

/-!
# Working directories over many setups

Many artifacts are set up below one cache root, some of them more than once, and some in the same
working directory. Whatever fails on the way, no working directory is left half done.

* `IsCall`: what is assumed of a setup.
* `Reachable`: the hosts that setups lead to.
* `IsOrderly`: what each setup keeps of a cache root.
* `Provider.setUp_allOrNothing`: a working directory is absent, empty or complete at any time.
-/

namespace MappingTables.Artifact

open Step WorkingDirectory

variable {cacheRoot name : String} {fs fs' : FileStore} {config : Config}
  {propose : FieldNameProposer} {host host' : Host} {outcome : Except Failure Provider}

/-! ## Setups -/

/-- What is assumed of a setup with a `host`: the proposer writes its own file at most, the
identifier of the artifact is a single name, and files can be written in the working directory, for
which no file is on the way and no path is too long. -/
structure IsCall (cacheRoot : String) (config : Config) (propose : FieldNameProposer)
    (host : Host) :
    Prop where
  root : config.cacheRoot = cacheRoot
  proposer : propose.WritesOnly
  identifier : ∀ inspection, ((Provider.inspectJar config.jar).runFrom host).1 = .ok inspection →
    '/' ∉ (Provider.ofConfig config inspection.dialect).identifier.toList ∧
    (Provider.ofConfig config inspection.dialect).identifier ≠ "." ∧
    (Provider.ofConfig config inspection.dialect).identifier ≠ ".."
  accessible : ∀ inspection, ((Provider.inspectJar config.jar).runFrom host).1 = .ok inspection →
    host.files.Accessible (Provider.ofConfig config inspection.dialect).workingDirectory
  check : ∀ inspection, ((Provider.inspectJar config.jar).runFrom host).1 = .ok inspection →
    ∀ name ∈ Provider.fileNames,
      FileStore.checkPath ((Provider.ofConfig config inspection.dialect).file name) = .ok ()

/-- The hosts that setups below a `cacheRoot` lead to, which is not there at first. Between two
setups anything may change but what is in the cache root. -/
inductive Reachable (cacheRoot : String) : Host → Prop
  | start {host : Host} (absent : host.files.Vacant cacheRoot) : Reachable cacheRoot host
  | change {host host' : Host} (before : Reachable cacheRoot host)
      (same : host.files.Confined (fun place => ¬host.files.target cacheRoot <+: place) []
        host'.files) : Reachable cacheRoot host'
  | setUp {host host' : Host} {config : Config} {propose : FieldNameProposer}
      {outcome : Except Failure Provider} (before : Reachable cacheRoot host)
      (call : IsCall cacheRoot config propose host)
      (run : (Provider.setUp config propose).runFrom host = (outcome, host')) :
      Reachable cacheRoot host'

/-- An `identifier` has dots in it. -/
theorem identifier_ne_empty (name gameVersion version classifier : String) :
    identifier name gameVersion version classifier ≠ "" := by
  intro h
  have hchars := congrArg String.toList h
  simp [identifier] at hchars

/-- The working directory of an artifact is named after its `identifier`, in the cache root. -/
theorem workingDirectory_ofConfig (config : Config) (dialect : Format.Dialect) :
    (Provider.ofConfig config dialect).workingDirectory =
      Path.join config.cacheRoot (Provider.ofConfig config dialect).identifier := by
  rw [Provider.ofConfig]

theorem IsCall.workingDirectory_eq (h : IsCall cacheRoot config propose host)
    (dialect : Format.Dialect) :
    (Provider.ofConfig config dialect).workingDirectory =
      Path.join cacheRoot (Provider.ofConfig config dialect).identifier := by
  rw [← h.root, workingDirectory_ofConfig]

/-! ## What setups keep -/

/-- Whether all working directories below a `cacheRoot` are settled, as `IsSettled` says, and the
path of the cache root does not lead through them. -/
structure IsOrderly (cacheRoot : String) (fs : FileStore) : Prop where
  way : ∀ above ∈ Path.ancestors cacheRoot, ∀ name below,
    fs.target above ≠ fs.target cacheRoot ++ name :: below
  working : ¬fs.target cacheRoot <+: fs.workingDirectory
  settled : ∀ name, Path.IsName name → IsSettled fs (Path.join cacheRoot name)

namespace IsOrderly

/-- An absent cache root `IsOrderly`. -/
theorem of_vacant (h : fs.Vacant cacheRoot) : IsOrderly cacheRoot fs where
  way := h.way
  working := (FileStore.vacant_iff.1 h).1
  settled name hname := .inl fun below => by
    rw [FileStore.target_join hname, List.append_assoc]
    exact h.nodes _

/-- `wayTo` a working directory ends at the cache root. -/
theorem not_mem_wayTo (h : IsOrderly cacheRoot fs) (hname : Path.IsName name) (other : String)
    (below : List String) :
    fs.target cacheRoot ++ other :: below ∉ wayTo fs (Path.join cacheRoot name) := by
  intro hmem
  obtain ⟨above, habove, hplace⟩ := List.mem_map.1 hmem
  rcases FileStore.target_of_mem_ancestors_join hname habove with heq | ⟨above', habove', heq⟩
  · rw [heq] at hplace
    simpa using congrArg List.length hplace
  · exact h.way above' habove' other below (heq.trans hplace)

/-- A working directory can be made in a cache root that `IsOrderly`. -/
theorem isSite (h : IsOrderly cacheRoot fs) (hname : Path.IsName name)
    (haccessible : fs.Accessible (Path.join cacheRoot name)) :
    IsSite fs (Path.join cacheRoot name) where
  named := hname.isNamed_join cacheRoot
  accessible := haccessible
  way place hplace := by
    rw [FileStore.target_join hname]
    rintro ⟨below, rfl⟩
    rw [List.append_assoc] at hplace
    exact h.not_mem_wayTo hname name below hplace
  working hbegins := h.working <| by
    rw [FileStore.target_join hname] at hbegins
    exact (List.prefix_append _ _).trans hbegins
  not_isFile := (h.settled name hname).not_isFile

/-- A cache root still `IsOrderly` if nothing in it changes. -/
theorem of_confined (h : IsOrderly cacheRoot fs)
    (hsame : fs.Confined (fun place => ¬fs.target cacheRoot <+: place) [] fs') :
    IsOrderly cacheRoot fs' where
  way above habove name below := by
    rw [hsame.target_eq, hsame.target_eq]
    exact h.way above habove name below
  working := by
    rw [hsame.target_eq, hsame.working]
    exact h.working
  settled name hname := by
    refine (h.settled name hname).congr (hsame.target_eq _) fun below => ?_
    refine hsame.node?_eq (not_not_intro ?_) List.not_mem_nil
    rw [FileStore.target_join hname, List.append_assoc]
    exact List.prefix_append _ _

/-- A cache root still `IsOrderly` if one of the working directories changes and `IsSettled`
afterwards. -/
theorem of_sameElsewhere (h : IsOrderly cacheRoot fs) (hname : Path.IsName name)
    (hsame : SameElsewhere (Path.join cacheRoot name) fs fs')
    (hsettled : IsSettled fs' (Path.join cacheRoot name)) : IsOrderly cacheRoot fs' where
  way above habove other below := by
    rw [hsame.target_eq, hsame.target_eq]
    exact h.way above habove other below
  working := by
    rw [hsame.target_eq, hsame.working]
    exact h.working
  settled other hother := by
    by_cases heq : other = name
    · exact heq ▸ hsettled
    · -- the places in another working directory are left alone
      refine (h.settled other hother).congr (hsame.target_eq _) fun below => ?_
      rw [FileStore.target_join hother, List.append_assoc]
      refine hsame.node?_eq ?_ (h.not_mem_wayTo hname other below)
      rw [FileStore.target_join hname]
      rintro ⟨rest, hrest⟩
      rw [List.append_assoc, List.append_cancel_left_eq] at hrest
      exact heq (List.cons.inj hrest).1.symm

/-- What `Provider.setUp` does to a cache root that `IsOrderly`. If the jar cannot be inspected,
nothing changes. Otherwise the working directory `IsComplete` if the setup succeeds and `IsEmpty` if
it fails, and no other place changes but for directories on the way there. -/
theorem setUp (h : IsOrderly cacheRoot host.files) (hcall : IsCall cacheRoot config propose host)
    (hrun : (Provider.setUp config propose).runFrom host = (outcome, host')) :
    (∀ failure, ((Provider.inspectJar config.jar).runFrom host).1 = .error failure →
      outcome = .error failure ∧ host' = host) ∧
    ∀ inspection, ((Provider.inspectJar config.jar).runFrom host).1 = .ok inspection →
      Path.IsName (Provider.ofConfig config inspection.dialect).identifier ∧
      let directory := (Provider.ofConfig config inspection.dialect).workingDirectory
      SameElsewhere directory host.files host'.files ∧
      (∀ p, outcome = .ok p → p.workingDirectory = directory ∧ IsComplete host'.files directory) ∧
      ∀ failure, outcome = .error failure → IsEmpty host'.files directory := by
  constructor
  -- a jar that cannot be inspected: nothing has been touched yet
  · intro failure hinspect
    have hinspected : (Provider.inspectJar config.jar).runFrom host = (.error failure, host) :=
      Prod.ext hinspect (Provider.leavesState_inspectJar _ host)
    rw [Provider.setUp, runFrom_bind, hinspected] at hrun
    cases hrun
    exact ⟨rfl, rfl⟩
  · intro inspection hinspect
    obtain ⟨hslash, hdot, hdots⟩ := hcall.identifier inspection hinspect
    have hname : Path.IsName (Provider.ofConfig config inspection.dialect).identifier :=
      ⟨identifier_ne_empty _ _ _ _, hdot, hdots, hslash⟩
    have hdirectory := hcall.workingDirectory_eq inspection.dialect
    have haccessible := hcall.accessible inspection hinspect
    -- the working directory is a site, and from there `Provider.setUp_spec` does the rest
    have hsite := h.isSite hname (hdirectory ▸ haccessible)
    have hsettled := h.settled _ hname
    rw [← hdirectory] at hsite hsettled
    exact ⟨hname, Provider.setUp_spec hcall.proposer hinspect rfl hsite hsettled
      (hcall.check inspection hinspect "mappings.tiny" (by decide)) hrun⟩

end IsOrderly

/-- In whatever `Reachable` state, the cache root `IsOrderly`: setups keep it so, whatever changes
elsewhere between them. -/
theorem Reachable.isOrderly (h : Reachable cacheRoot host) : IsOrderly cacheRoot host.files := by
  induction h with
  | start absent => exact .of_vacant absent
  | change before same ih => exact ih.of_confined same
  | @setUp host host' config propose outcome before call run ih =>
    obtain ⟨hfailed, hinspected⟩ := ih.setUp call run
    cases hinspect : ((Provider.inspectJar config.jar).runFrom host).1 with
    | error failure =>
      rw [(hfailed failure hinspect).2]
      exact ih
    | ok inspection =>
      obtain ⟨hname, hsame, hcomplete, hempty⟩ := hinspected inspection hinspect
      have hdirectory := call.workingDirectory_eq inspection.dialect
      refine ih.of_sameElsewhere hname (hdirectory ▸ hsame) (hdirectory ▸ ?_)
      cases outcome with
      | ok p => exact .inr (.inr (hcomplete p rfl).2)
      | error failure => exact .inr (.inl (hempty failure rfl))

namespace Provider

/-- The sample, to be made anew with intermediary mappings that are not there. -/
def brokenConfig : Config :=
  { sampleConfig with intermediary := "missing.tiny", refresh := true }

/-- The working directory of the sample. -/
def sampleDirectory : String :=
  "cache/yarn.1_20.1-v2"

/-- `sampleConfig` can be set up, but not be made anew with intermediary mappings that are not
there. -/
theorem exists_setUp_samples : ∃ p host₁ failure host₂,
    (setUp sampleConfig noProposer).runFrom (sampleHost sampleIntermediary) = (.ok p, host₁) ∧
    (setUp brokenConfig noProposer).runFrom host₁ = (.error failure, host₂) ∧
    ((inspectJar sampleConfig.jar).runFrom host₁).1.toOption = some ⟨.nested, none⟩ ∧
    host₁.files.target "cache" = ["cache"] := by
  have hruns : (match (setUp sampleConfig noProposer).runFrom (sampleHost sampleIntermediary) with
      | (.ok _, host₁) =>
        ((setUp brokenConfig noProposer).runFrom host₁).1.toOption.isNone &&
          (((inspectJar sampleConfig.jar).runFrom host₁).1.toOption == some ⟨.nested, none⟩ &&
            host₁.files.target "cache" == ["cache"])
      | (.error _, _) => false) = true := by
    -- keys are put into order by a sort that can be evaluated
    simp only [setUp, fillDirectory, takeMappings, storeMappings, makeMappings,
      mergeWithIntermediary, Table.merge, Table.join, Layout.joinClass, Layout.joinMethod,
      unionKeys_eq_insertionSort isKeyOrder_textLe, unionKeys_eq_insertionSort isKeyOrder_memberKey,
      unionKeys_eq_insertionSort isKeyOrder_indexLe]
    decide +kernel
  generalize (setUp sampleConfig noProposer).runFrom (sampleHost sampleIntermediary) =
    first at hruns
  obtain ⟨outcome, host₁⟩ := first
  cases outcome with
  | error failure => cases hruns
  | ok p =>
    simp only [Bool.and_eq_true, beq_iff_eq] at hruns
    generalize hsecond : (setUp brokenConfig noProposer).runFrom host₁ = second at hruns
    obtain ⟨outcome, host₂⟩ := second
    cases outcome with
    | ok p => cases hruns.1
    | error failure => exact ⟨p, host₁, failure, host₂, rfl, hsecond, hruns.2.1, hruns.2.2⟩

theorem writesOnly_noProposer : noProposer.WritesOnly :=
  fun _ _ out host => .refl (· = host.files.target out) [] host.files

/-- The sample `IsCall`: it is what a setup is assumed to be, as long as the cache root is no
file. -/
theorem isCall_sample (hroot : config.cacheRoot = "cache")
    (hprovider : ofConfig config .nested = ofConfig sampleConfig .nested)
    (hinspect : ((inspectJar config.jar).runFrom host).1.toOption = some ⟨.nested, none⟩)
    (hcache : ¬host.files.IsFile (host.files.target "cache")) :
    IsCall "cache" config noProposer host := by
  have hinspected : ∀ inspection, ((inspectJar config.jar).runFrom host).1 = .ok inspection →
      ofConfig config inspection.dialect = ofConfig sampleConfig .nested := by
    intro inspection h
    rw [h] at hinspect
    obtain rfl := Option.some.inj hinspect
    exact hprovider
  refine ⟨hroot, writesOnly_noProposer, fun inspection h => ?_, fun inspection h => ?_,
    fun inspection h => ?_⟩
  · rw [hinspected inspection h]
    decide +kernel
  · have hdirectory : (ofConfig sampleConfig .nested).workingDirectory = sampleDirectory := by
      decide +kernel
    have hancestors : Path.ancestors sampleDirectory = ["cache"] := by decide +kernel
    rw [hinspected inspection h, hdirectory]
    refine ⟨FileStore.checkPath_eq_ok_iff.2 (by decide +kernel), by decide +kernel, ?_⟩
    rw [hancestors]
    simpa using hcache
  · rw [hinspected inspection h]
    simp only [FileStore.checkPath_eq_ok_iff]
    decide +kernel

end Provider

end MappingTables.Artifact
