import LockUsage.Proofs.RedirectedRuns
import LockUsage.Proofs.Summaries

/-! Summaries of redirected functions. If locks are told apart by names only, what is found in a
function depends on which calls acquire and release which locks, not on how deep these calls go. -/

namespace LockUsage

/-- The site without the way to the routine. -/
def LockSite.plain (site : LockSite) : LockSite := { site with viaWrapper := false, depth := 0 }

namespace SiteMap

def plain (m : SiteMap) : SiteMap := ⟨m.entries.map (Prod.map id (List.map LockSite.plain))⟩

theorem plain_push (m : SiteMap) (site : LockSite) :
    (m.push site).plain = m.plain.push site.plain := by
  obtain ⟨entries⟩ := m
  simp only [push, plain, mk.injEq]
  induction entries with
  | nil => rfl
  | cons entry rest ih =>
    obtain ⟨inst, sites⟩ := entry
    by_cases h : inst = site.inst
    · simp [SiteMap.insert, LockSite.plain, h]
    · simp only [SiteMap.insert, if_neg h, List.map_cons, ih]
      simp [LockSite.plain, h]

theorem plain_ofList (sites : List LockSite) :
    (ofList sites).plain = ofList (sites.map LockSite.plain) := by
  have hfold (m : SiteMap) : (sites.foldl push m).plain =
      (sites.map LockSite.plain).foldl push m.plain := by
    induction sites generalizing m with
    | nil => rfl
    | cons site sites ih => rw [List.foldl_cons, ih, plain_push, List.map_cons, List.foldl_cons]
  exact hfold .empty

theorem sites_plain (m : SiteMap) : m.plain.sites = m.sites.map LockSite.plain := by
  simp only [sites, plain, List.flatMap_map, List.map_flatMap]
  rfl

theorem events?_plain {isOn : LockSite → Option Bool} (h : ∀ site, isOn site.plain = isOn site)
    (m : SiteMap) : m.plain.events? isOn = m.events? isOn := by
  have hfirst (sites : List LockSite) :
      firstOp? isOn (sites.map LockSite.plain) = firstOp? isOn sites := by
    induction sites with
    | nil => rfl
    | cons site sites ih => simp only [List.map_cons, firstOp?, h, ih]; rfl
  simp only [events?, plain, List.mapM_map]
  congr 1
  funext entry
  exact congrArg (Option.map _) (hfirst entry.2)

end SiteMap

/-- Names decide whatever answer is asked for. -/
theorem AliasSource.aliases?_names (p : Program) (threshold threshold' : AliasKind)
    (v v' : ScopedValue) :
    names.aliases? p threshold v v' = names.aliases? p threshold' v v' := by
  simp only [aliases?, alias?]
  split_ifs
  · rfl
  · rw [Option.map_some, Option.map_some, AliasKind.must_satisfies, AliasKind.must_satisfies]
  · cases v.name? p with
    | none => rfl
    | some name =>
      cases v'.name? p with
      | none => rfl
      | some name' =>
        simp only [Option.bind_eq_bind, Option.bind_some, Option.pure_def, Option.map_some]
        split_ifs
        · rw [AliasKind.must_satisfies, AliasKind.must_satisfies]
        · rfl

theorem LockSite.isOn?_plain (config : Config) (p : Program) (func : FuncId) (lock : ScopedValue)
    (site : LockSite) :
    isOn? .names config p func lock site.plain = isOn? .names config p func lock site :=
  AliasSource.aliases?_names p _ _ ⟨func, site.lock⟩ lock

section Flat

def LockStatistic.flat (s : LockStatistic) : LockStatistic := { s with callDepth := 0 }

def FunctionStatistic.flat (s : FunctionStatistic) : FunctionStatistic :=
  { s with locks := s.locks.map LockStatistic.flat }

def Summary.flat (s : Summary) : Summary := { s with statistic := s.statistic.flat }

theorem LockStatistic.wrappers_eq_of_flat {s s' : LockStatistic} (h : s'.flat = s.flat) :
    s'.lockWrapper = s.lockWrapper ∧ s'.unlockWrapper = s.unlockWrapper := by
  have hlock : s'.flat.lockWrapper = s.flat.lockWrapper := by rw [h]
  have hunlock : s'.flat.unlockWrapper = s.flat.unlockWrapper := by rw [h]
  exact ⟨hlock, hunlock⟩

theorem LockStatistic.flat_record (s : LockStatistic) (usage : Usage) :
    (s.record usage).flat = s.flat.record usage := by
  cases usage <;> rfl

theorem LockStatistic.flat_foldl_record (s : LockStatistic) (usages : List Usage) :
    (usages.foldl record s).flat = usages.foldl record s.flat := by
  induction usages generalizing s with
  | nil => rfl
  | cons usage usages ih => rw [List.foldl_cons, ih, flat_record, List.foldl_cons]

theorem FunctionStatistic.flat_push (s : FunctionStatistic) (lock : LockStatistic) :
    (s.push lock).flat = s.flat.push lock.flat := by
  rw [flat, push, push, List.map_append]
  rfl

theorem flat_siteStatistic (lock : TrackedLock) (sites : List LockSite) :
    (Analysis.siteStatistic lock (sites.map LockSite.plain)).flat =
      (Analysis.siteStatistic lock sites).flat := by
  have hcount (op : LockOp) : ((sites.map LockSite.plain).filter fun s => s.op == op).length =
      (sites.filter fun s => s.op == op).length := by
    rw [List.filter_map, List.length_map]
    rfl
  simp only [Analysis.siteStatistic, LockStatistic.flat, hcount]

end Flat

namespace Problem

variable (r : FuncId → InstId → FuncId → FuncId) (r' : InstId → FuncId → FuncId)
  {source : AliasSource} {config : Config} {p : Program} {func : FuncId} {b : Body}
  {sites : SiteMap} {lock : TrackedLock}

theorem finRange_cast {n m : Nat} (h : n = m) :
    List.finRange m = (List.finRange n).map (Fin.cast h) := by
  subst h
  simp

theorem filterMap_cast {n m : Nat} (h : n = m) (events : LockEvents) :
    (events.filterMap fun event => if h : event.1 < m then some (⟨event.1, h⟩ : Fin m) else none) =
      (events.filterMap fun event =>
        if h : event.1 < n then some (⟨event.1, h⟩ : Fin n) else none).map (Fin.cast h) := by
  subst h
  simp

theorem known_redirect (events : LockEvents) :
    known (b.redirect r') events = (known b events).map (b.lift r') :=
  filterMap_cast (b.size_redirect r') events

theorem mapM_guard?_redirect :
    (b.redirect r').insts.mapM ((p.redirect r).guard? func (b.redirect r')) =
      b.insts.mapM (p.guard? func b) := by
  have hinsts : (b.redirect r').insts = b.insts.map (b.lift r') :=
    finRange_cast (b.size_redirect r')
  rw [hinsts, List.mapM_map]
  congr 1
  funext i
  exact p.guard?_redirect r func r' i

theorem pose_redirect (events : LockEvents) :
    pose config (p.redirect r) func (b.redirect r') lock events =
      (pose config p func b lock events).redirect r' := by
  have hguard : (fun i => ((p.redirect r).guard? func (b.redirect r') i).getD (.unknown, none)) =
      fun i => (p.guard? func b (i.cast (b.size_redirect r').symm)).getD (.unknown, none) := by
    funext i
    exact congrArg (Option.getD · _)
      (p.guard?_redirect r func r' (i.cast (b.size_redirect r').symm))
  rw [pose, hguard, known_redirect]
  rfl

theorem of?_redirect : of? source config (p.redirect r) func (b.redirect r') sites lock =
    (of? source config p func b sites lock).map (redirect r') := by
  have hevents : events? source config (p.redirect r) func (b.redirect r') sites lock =
      events? source config p func b sites lock := by
    have hon : LockSite.isOn? source config (p.redirect r) func lock.value =
        LockSite.isOn? source config p func lock.value := by
      funext site
      exact source.aliases?_redirect r p _ _ _
    rw [events?, events?, Body.entry?_redirect, Option.isSome_map, hon]
  rw [of?_eq, of?_eq, hevents, mapM_guard?_redirect, Option.map_bind]
  congr 1
  funext events
  simp only [Function.comp_apply, Option.map_bind]
  congr 1
  funext _
  simp only [known_redirect, List.length_map, pose_redirect]
  split_ifs <;> rfl

end Problem

section Sites

variable (r : FuncId → InstId → FuncId → FuncId) (r' : InstId → FuncId → FuncId)
  (caller : Func) (site : CallSite) (summary : Summary)

theorem LockApi.primitiveSite?_redirect (api : LockApi) (p : Program) :
    api.primitiveSite? (p.redirect r) (caller.redirect r') site =
      api.primitiveSite? p caller site := by
  have hcall : api.primitiveCall? (p.redirect r) site = api.primitiveCall? p site := by
    obtain ⟨inst, callee, args⟩ := site
    cases callee with
    | direct g =>
      simp only [primitiveCall?, Program.getElem?_functions_redirect]
      cases p.functions[g]? <;> rfl
    | indirect => rfl
  simp only [primitiveSite?, hcall, Func.root_redirect]

theorem Analysis.wrapperSites_redirect :
    wrapperSites (caller.redirect r') (site.redirect r') summary =
      wrapperSites caller site summary := by
  simp only [wrapperSites, wrapperSite?, funext (caller.root_redirect r')]
  rfl

/-- Sites without the way to the routine come from a summary without call depths. -/
theorem Analysis.map_plain_wrapperSites :
    (wrapperSites caller site summary.flat).map LockSite.plain =
      (wrapperSites caller site summary).map LockSite.plain := by
  have hsite (lock : LockStatistic) (value : Operand) :
      (wrapperSite? caller site lock.flat value).map LockSite.plain =
        (wrapperSite? caller site lock value).map LockSite.plain := by
    simp only [wrapperSite?_eq, LockStatistic.flat]
    split_ifs <;> cases callerValue? caller site value <;> rfl
  rw [wrapperSites, wrapperSites, List.map_filterMap, List.map_filterMap, Summary.flat]
  simp only [FunctionStatistic.flat, List.zip_map_left, List.filterMap_map]
  exact List.filterMap_congr fun entry _ => hsite entry.1 entry.2.value

/-- A call that stays as it is does the same if its callee has the same summary. -/
theorem Analysis.map_plain_sitesOf_redirect {A A' : Analysis}
    (hprogram : A'.program = A.program.redirect r) (hconfig : A'.config = A.config)
    (hapi : A'.api = A.api) {summaries summaries' : Summaries} (hsame : site.redirect r' = site)
    (hlookup : ∀ g, site.callee = .direct g →
      (summaries'.lookup g).map Summary.flat = (summaries.lookup g).map Summary.flat) :
    (A'.sitesOf summaries' (caller.redirect r') site).map LockSite.plain =
      (A.sitesOf summaries caller site).map LockSite.plain := by
  have hprimitive : A'.api.primitiveSite? A'.program (caller.redirect r') site =
      A.api.primitiveSite? A.program caller site := by
    rw [hprogram, hapi, LockApi.primitiveSite?_redirect]
  cases hp : A.api.primitiveSite? A.program caller site with
  | some primitive =>
    rw [sitesOf_primitive (hprimitive.trans hp), sitesOf_primitive hp]
  | none =>
    cases hcallee : site.callee with
    | indirect =>
      rw [sitesOf_indirect (hprimitive.trans hp) hcallee, sitesOf_indirect hp hcallee]
    | direct g =>
      have hflat (found : Option Summary) :
          ((found.map (wrapperSites caller site)).getD []).map LockSite.plain =
            (((found.map Summary.flat).map (wrapperSites caller site)).getD []).map
              LockSite.plain := by
        cases found with
        | none => rfl
        | some summary => exact (map_plain_wrapperSites caller site summary).symm
      have hwrapper : wrapperSites (caller.redirect r') site = wrapperSites caller site := by
        funext summary
        have h := wrapperSites_redirect r' caller site summary
        rwa [hsame] at h
      rw [sitesOf_direct (hprimitive.trans hp) hcallee, sitesOf_direct hp hcallee, hwrapper,
        hconfig]
      split_ifs
      · rw [hflat, hlookup g hcallee, ← hflat]
      · rfl

end Sites

namespace Analysis

variable {A : Analysis} {func : FuncId} {b : Body} {deps : Body.Dependences b.func.blocks.size}
  {lock : TrackedLock} {sites sites' : SiteMap}

def LockFinding.flat (f : LockFinding) : LockFinding := { f with statistic := f.statistic.flat }

variable (r : FuncId → InstId → FuncId → FuncId) (r' : InstId → FuncId → FuncId)

theorem flat_finding {statistic statistic' : LockStatistic}
    (h : statistic'.flat = statistic.flat) (events : LockEvents) (P : Problem) :
    (finding (b.redirect r') deps lock statistic' events (P.redirect r')).flat =
      (finding b deps lock statistic events P).flat := by
  have hwrapper := (LockStatistic.wrappers_eq_of_flat h).1
  obtain ⟨hconverged, hlog, hexit⟩ := Problem.solve_redirect r' (P := P)
  have hclassify : ((b.redirect r').findPairs fun i => events.op i.val).map
      ((b.redirect r').classify deps) =
        (b.findPairs fun i => events.op i.val).map (b.classify deps) := by
    rw [Body.findPairs_redirect, List.map_map]
    exact List.map_congr_left fun pair _ => Body.classify_lift deps pair
  simp only [finding, LockFinding.flat, LockStatistic.flat_foldl_record, hclassify, h, hwrapper,
    hconverged, hlog, hexit]

section Names

variable {p : Program} {config : Config} {api : LockApi} {graph graph' : CallGraph}

/-- What is found of a lock does not depend on whom calls go to nor on how deep they go. -/
theorem flat_examineLock? (h : sites'.plain = sites.plain) :
    (examineLock? ⟨p.redirect r, .names, config, api, graph'⟩ func (b.redirect r') deps sites'
        lock).map LockFinding.flat =
      (examineLock? ⟨p, .names, config, api, graph⟩ func b deps sites lock).map
        LockFinding.flat := by
  have hon : LockSite.isOn? .names config (p.redirect r) func lock.value =
      LockSite.isOn? .names config p func lock.value := by
    funext site
    exact AliasSource.names.aliases?_redirect r p _ _ _
  have hplain := LockSite.isOn?_plain config p func lock.value
  generalize hisOn : LockSite.isOn? .names config p func lock.value = isOn at hon hplain
  have hevents : sites'.events? isOn = sites.events? isOn := by
    rw [← SiteMap.events?_plain hplain, h, SiteMap.events?_plain hplain]
  have hfilter : (sites'.sites.filterM isOn).map (List.map LockSite.plain) =
      (sites.sites.filterM isOn).map (List.map LockSite.plain) := by
    have hmap (m : SiteMap) : m.plain.sites.filterM isOn =
        (m.sites.filterM isOn).map (List.map LockSite.plain) := by
      rw [SiteMap.sites_plain, filterM_map, funext hplain]
    rw [← hmap, ← hmap, h]
  have hproblem (wrapper : Bool) : Problem.of? .names config (p.redirect r) func (b.redirect r')
      sites' { lock with unlockWrapper := wrapper } =
        (Problem.of? .names config p func b sites { lock with unlockWrapper := wrapper }).map
          (Problem.redirect r') := by
    rw [Problem.of?_redirect, Problem.of?_eq, Problem.of?_eq, Problem.events?, Problem.events?]
    simp only [hisOn, hevents]
  rw [examineLock?_eq, examineLock?_eq]
  simp only [hon, hisOn, hevents, hproblem]
  cases hfound : sites.sites.filterM isOn with
  | none =>
    rw [hfound, Option.map_none, Option.map_eq_none_iff] at hfilter
    rw [hfilter]
    rfl
  | some on =>
    rw [hfound, Option.map_some, Option.map_eq_some_iff] at hfilter
    obtain ⟨on', hfound', hplain'⟩ := hfilter
    have hstatistic : (siteStatistic lock on').flat = (siteStatistic lock on).flat := by
      rw [← flat_siteStatistic, hplain', flat_siteStatistic]
    rw [hfound', Option.bind_some, Option.bind_some,
      (LockStatistic.wrappers_eq_of_flat hstatistic).2]
    cases sites.events? isOn with
    | none => rfl
    | some events =>
      rw [Option.bind_some, Option.bind_some]
      generalize Problem.of? .names config p func b sites _ = problem
      cases problem with
      | none => rfl
      | some P => exact congrArg some (flat_finding r' hstatistic events P)

theorem distinctLocks?_redirect (h : sites'.plain = sites.plain) :
    distinctLocks? ⟨p.redirect r, .names, config, api, graph'⟩ func sites' =
      distinctLocks? ⟨p, .names, config, api, graph⟩ func sites := by
  have hadd : addLock? ⟨p.redirect r, .names, config, api, graph'⟩ func =
      addLock? ⟨p, .names, config, api, graph⟩ func := by
    funext locks site
    simp [addLock?]
  have hplain (m : SiteMap) : distinctLocks? ⟨p, .names, config, api, graph⟩ func m.plain =
      distinctLocks? ⟨p, .names, config, api, graph⟩ func m := by
    rw [distinctLocks?, distinctLocks?, SiteMap.sites_plain, List.foldlM_map]
    rfl
  rw [distinctLocks?, hadd]
  exact (hplain sites').symm.trans ((congrArg _ h).trans (hplain sites))

/-- What is found in a function, apart from call depths. -/
def flat (found : Summary × Log) : Summary × Log := (found.1.flat, found.2)

theorem flat_addFinding (found : Summary × Log) (lock : TrackedLock) (finding : LockFinding) :
    flat (addFinding found lock finding) = addFinding (flat found) lock finding.flat := by
  have hpush := found.1.statistic.flat_push finding.statistic
  simp only [flat, addFinding, Summary.flat, LockFinding.flat]
  rw [← hpush]
  rfl

theorem flat_addExamined (h : sites'.plain = sites.plain) {found found' : Summary × Log}
    (hfound : flat found' = flat found) :
    ((examineLock? ⟨p.redirect r, .names, config, api, graph'⟩ func (b.redirect r') deps sites'
        lock).bind fun finding => some (addFinding found' lock finding)).map flat =
      ((examineLock? ⟨p, .names, config, api, graph⟩ func b deps sites lock).bind
        fun finding => some (addFinding found lock finding)).map flat := by
  have hflat (found : Summary × Log) (finding : Option LockFinding) :
      (finding.bind fun finding => some (addFinding found lock finding)).map flat =
        (finding.map LockFinding.flat).map (addFinding (flat found) lock) := by
    cases finding with
    | none => rfl
    | some finding => exact congrArg some (flat_addFinding found lock finding)
  rw [hflat, hflat, flat_examineLock? r r' h, hfound]

/-- What is found in a function depends on what its calls do to locks. -/
theorem flat_summarize? {summaries summaries' : Summaries} {f : Func} {calls : List CallSite}
    (hf : p.functions[func]? = some f) (hb : Body.of? f = some b)
    (hcalls : f.callSites? = some calls)
    (hrec : graph'.isRecursive func = graph.isRecursive func)
    (hsites : ∀ site ∈ calls,
      (sitesOf ⟨p.redirect r, .names, config, api, graph'⟩ summaries' (f.redirect (r func))
          (site.redirect (r func))).map LockSite.plain =
        (sitesOf ⟨p, .names, config, api, graph⟩ summaries f site).map LockSite.plain) :
    (summarize? ⟨p.redirect r, .names, config, api, graph'⟩ summaries' func).map flat =
      (summarize? ⟨p, .names, config, api, graph⟩ summaries func).map flat := by
  obtain rfl := Body.func_of_of? hb
  have hb' := Body.of?_redirect (r func) b hb
  have hcalls' : (b.func.redirect (r func)).callSites? =
      some (calls.map (CallSite.redirect (r func))) := by
    rw [Func.callSites?_redirect, hcalls, Option.map_some]
  have hplain : (SiteMap.ofList ((calls.map (CallSite.redirect (r func))).flatMap
      (sitesOf ⟨p.redirect r, .names, config, api, graph'⟩ summaries'
        (b.func.redirect (r func))))).plain =
      (SiteMap.ofList (calls.flatMap
        (sitesOf ⟨p, .names, config, api, graph⟩ summaries b.func))).plain := by
    rw [SiteMap.plain_ofList, SiteMap.plain_ofList, List.flatMap_map, List.map_flatMap,
      List.map_flatMap]
    exact congrArg SiteMap.ofList (List.flatMap_congr hsites)
  have hwarnings : (calls.map (CallSite.redirect (r func))).filterMap
      (callWarning? (b.func.redirect (r func))) = calls.filterMap (callWarning? b.func) := by
    rw [List.filterMap_map]
    refine List.filterMap_congr fun site _ => ?_
    obtain ⟨inst, callee, args⟩ := site
    cases callee <;> rfl
  simp only [summarize?, Program.getElem?_functions_redirect, hf, hb, hb', hcalls, hcalls',
    hwarnings, hrec, Option.map_some, Option.bind_eq_bind, Option.bind_some]
  rw [distinctLocks?_redirect r hplain, Option.map_bind, Option.map_bind]
  congr 1
  funext locks
  refine map_foldlM_congr (fun found found' lock h => ?_) locks rfl
  have hdeps : (b.redirect (r func)).dependences = b.dependences :=
    Body.dependences_redirect (r func)
  rw [hdeps]
  exact flat_addExamined r (r func) hplain h

end Names

end Analysis

end LockUsage
