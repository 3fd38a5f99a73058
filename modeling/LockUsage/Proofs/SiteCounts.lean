import LockUsage.Proofs.Summaries

/-! How many operations a lock has. The numbers that are reported count the sites on the lock, and a
run and the search for pairs see the first one of each instruction. -/

namespace LockUsage

namespace SiteMap

variable {m : SiteMap} {site : LockSite}

theorem insts_push_of_mem (h : site.inst ∈ m.insts) : (m.push site).insts = m.insts := by
  obtain ⟨entries⟩ := m
  simp only [insts, push] at h ⊢
  induction entries with
  | nil => cases h
  | cons entry rest ih =>
    rw [SiteMap.insert]
    split_ifs with heq
    · rfl
    · obtain hfirst | hrest := List.mem_cons.mp h
      · exact absurd hfirst.symm heq
      · rw [List.map_cons, ih hrest, List.map_cons]

theorem entries_push (h : site.inst ∉ m.insts) :
    (m.push site).entries = m.entries ++ [(site.inst, [site])] := by
  obtain ⟨entries⟩ := m
  simp only [insts, push] at h ⊢
  induction entries with
  | nil => rfl
  | cons entry rest ih =>
    rw [List.map_cons, List.mem_cons, not_or] at h
    rw [SiteMap.insert, if_neg fun heq => h.1 heq.symm, ih h.2, List.cons_append]

theorem nodup_insts_ofList (sites : List LockSite) : (ofList sites).insts.Nodup := by
  refine List.foldlRecOn (motive := fun m : SiteMap => m.insts.Nodup) sites _ List.nodup_nil ?_
  intro m hm site _
  by_cases hmem : site.inst ∈ m.insts
  · rwa [insts_push_of_mem hmem]
  · rw [insts, entries_push hmem, List.map_append]
    exact hm.append (List.nodup_singleton _) (List.disjoint_singleton.mpr hmem)

/-- Sites of different instructions stay alone. -/
theorem entries_ofList {sites : List LockSite} (h : (sites.map (·.inst)).Nodup) :
    (ofList sites).entries = sites.map fun site => (site.inst, [site]) := by
  induction sites using List.reverseRecOn with
  | nil => rfl
  | append_singleton sites site ih =>
    rw [List.map_append, List.nodup_append] at h
    obtain ⟨hsites, -, hne⟩ := h
    have hpush : ofList (sites ++ [site]) = (ofList sites).push site := by
      simp [ofList, List.foldl_append]
    have hinsts : (ofList sites).insts = sites.map (·.inst) := by simp [insts, ih hsites]
    have hnew : site.inst ∉ (ofList sites).insts := fun hmem =>
      hne _ (hinsts ▸ hmem) site.inst (by simp) rfl
    rw [hpush, entries_push hnew, ih hsites, List.map_append]
    rfl

end SiteMap

/-- The sites of an instruction that a test accepts. -/
def accepted (isOn : LockSite → Option Bool) (sites : List LockSite) : List LockSite :=
  sites.filter fun site => isOn site == some true

theorem firstOp?_eq_some {isOn : LockSite → Option Bool} {sites : List LockSite}
    {op : Option LockOp} (h : firstOp? isOn sites = some op) :
    op = (accepted isOn sites).head?.map (·.op) := by
  induction sites with
  | nil => exact (Option.some.inj h).symm
  | cons site sites ih =>
    obtain ⟨on, hon, h⟩ := Option.bind_eq_some_iff.mp h
    cases on with
    | true => simpa [accepted, hon, eq_comm] using h
    | false => simpa [accepted, hon] using ih h

theorem SiteMap.events?_eq_some {m : SiteMap} {isOn : LockSite → Option Bool}
    {events : LockEvents} (h : m.events? isOn = some events) :
    events = m.entries.map fun entry => (entry.1, (accepted isOn entry.2).head?.map (·.op)) := by
  refine mapM_eq_map (fun entry event hevent => ?_) h
  obtain ⟨op, hop, rfl⟩ := Option.map_eq_some_iff.mp hevent
  rw [firstOp?_eq_some hop]

/-- The sites of an instruction are the first one, which is an event, and those behind it. -/
theorem countP_accepted (isOn : LockSite → Option Bool) (op : LockOp)
    (entries : List (InstId × List LockSite)) :
    (entries.flatMap fun entry => accepted isOn entry.2).countP (fun site => site.op == op) =
      (entries.map fun entry => (entry.1, (accepted isOn entry.2).head?.map (·.op))).countP
        (fun event => event.2 == some op) +
      (entries.flatMap fun entry => (accepted isOn entry.2).tail).countP
        fun site => site.op == op := by
  induction entries with
  | nil => rfl
  | cons entry rest ih =>
    simp only [List.flatMap_cons, List.map_cons, List.countP_append, List.countP_cons, ih]
    cases accepted isOn entry.2 with
    | nil => simp
    | cons site sites => simp [List.countP_cons]; omega

theorem LockEvents.op_eq_some_iff {events : LockEvents} (h : (events.map (·.1)).Nodup)
    {inst : InstId} {op : LockOp} : events.op inst = some op ↔ (inst, some op) ∈ events := by
  rw [LockEvents.op, Option.join_eq_some_iff]
  constructor
  · intro hop
    obtain ⟨before, after, rfl, -⟩ := List.lookup_eq_some_iff.mp hop
    exact List.mem_append_right _ List.mem_cons_self
  · exact lookup_of_mem h

/-- Each event is that of one instruction. -/
theorem LockEvents.countP_insts {events : LockEvents} (h : (events.map (·.1)).Nodup) {b : Body}
    {op : LockOp} (hlt : ∀ event ∈ events, event.2 = some op → event.1 < b.func.insts.size) :
    (b.insts.countP fun i => events.op i.val == some op) =
      events.countP fun event => event.2 == some op := by
  have hinsts : ((b.insts.filter fun i => events.op i.val == some op).map Fin.val).Nodup :=
    ((List.nodup_finRange _).filter _).map Fin.val_injective
  have hevents : ((events.filter fun event => event.2 == some op).map (·.1)).Nodup :=
    h.sublist (List.filter_sublist.map _)
  have hperm := (List.perm_ext_iff_of_nodup hinsts hevents).mpr fun inst => by
    simp only [List.mem_map, List.mem_filter, beq_iff_eq, LockEvents.op_eq_some_iff h]
    constructor
    · rintro ⟨i, ⟨-, hmem⟩, rfl⟩
      exact ⟨_, ⟨hmem, rfl⟩, rfl⟩
    · rintro ⟨⟨key, value⟩, ⟨hmem, rfl⟩, rfl⟩
      exact ⟨⟨key, hlt _ hmem rfl⟩, ⟨List.mem_finRange _, hmem⟩, rfl⟩
  simpa [List.countP_eq_length_filter] using hperm.length_eq

namespace Analysis

variable {A : Analysis} {func : FuncId} {b : Body} {sites : SiteMap}

namespace Examination

/-- The sites on the lock that stand behind another one of the same instruction. -/
def behind (x : A.Examination func b sites) : List LockSite :=
  sites.entries.flatMap fun entry =>
    (accepted (LockSite.isOn? A.source A.config A.program func x.lock.value) entry.2).tail

variable (x : A.Examination func b sites)

theorem on_eq_flatMap : x.on = sites.entries.flatMap fun entry =>
    accepted (LockSite.isOn? A.source A.config A.program func x.lock.value) entry.2 := by
  rw [← (filterM_eq_some_iff.mp x.on_eq).2, SiteMap.sites, List.filter_flatMap]
  rfl

/-- Events at which something happens are in range, or there was no problem to pose. -/
theorem inst_lt (hentry : b.entry?.isSome) {event : InstId × Option LockOp}
    (hevent : event ∈ x.events) {op : LockOp} (hop : event.2 = some op) :
    event.1 < b.func.insts.size := by
  have hposed := x.posed
  have hevents : Problem.events? A.source A.config A.program func b sites
      (followed x.lock x.on) = some x.events := by
    rw [Problem.events?, if_pos hentry]
    exact x.events_eq
  simp only [Problem.of?_eq, hevents, Option.bind_some, Option.bind_eq_some_iff] at hposed
  obtain ⟨-, -, hposed⟩ := hposed
  split_ifs at hposed with hknown
  have hlength : (Problem.known b (Problem.active x.events)).length =
      (Problem.active x.events).length := by simpa using hknown
  have hactive : event ∈ Problem.active x.events := List.mem_filter.mpr ⟨hevent, by simp [hop]⟩
  by_contra hge
  simpa [hge] using List.filterMap_length_eq_length.mp hlength event hactive

/-- The number of operations is that of the instructions that are taken for one, and of the sites
that stand behind another one. -/
theorem operations_eq (hentry : b.entry?.isSome) (hsites : sites.insts.Nodup) (op : LockOp) :
    x.statistic.operations op =
      (b.insts.countP fun i => x.problem.op i == some op) +
        x.behind.countP fun site => site.op == op := by
  have hevents := SiteMap.events?_eq_some x.events_eq
  have hkeys : (x.events.map (·.1)).Nodup := by
    rw [hevents, List.map_map]
    exact hsites
  have hinsts := LockEvents.countP_insts hkeys fun _ hevent (hop : _ = some op) =>
    x.inst_lt hentry hevent hop
  rw [x.operations_statistic, x.on_eq_flatMap, countP_accepted, ← hevents, ← hinsts]
  rfl

end Examination

section Routines

variable {summaries : Summaries} {f : Func} {calls : List CallSite}

theorem insts_callSites? (h : f.callSites? = some calls) :
    (calls.map (·.inst)).Sublist f.listed := by
  have hfold {ids : List InstId} {found : List (Option CallSite)}
      (h : ids.mapM f.call? = some found) :
      ((found.filterMap id).map (·.inst)).Sublist ids := by
    induction ids generalizing found with
    | nil => simp [← Option.some.inj h]
    | cons id ids ih =>
      simp only [List.mapM_cons, Option.bind_eq_bind, Option.bind_eq_some_iff] at h
      obtain ⟨call, hcall, rest, hrest, h⟩ := h
      obtain rfl := Option.some.inj h
      obtain ⟨inst, -, hcall⟩ := Option.map_eq_some_iff.mp hcall
      cases call with
      | none => exact (ih hrest).cons _
      | some site =>
        have hinst : site.inst = id := by
          split at hcall
          · rw [← Option.some.inj hcall]
          · cases hcall
        simpa [hinst] using ih hrest
  obtain ⟨found, hfound, rfl⟩ := Option.map_eq_some_iff.mp h
  exact hfold hfound

/-- Without wrappers a call has one operation at most. -/
theorem insts_sitesOf (hinter : A.config.interprocedural = false) (call : CallSite) :
    ((A.sitesOf summaries f call).map (·.inst)).Sublist [call.inst] := by
  rw [sitesOf]
  split
  · next primitive hprimitive =>
    obtain ⟨found, -, rfl⟩ := Option.map_eq_some_iff.mp hprimitive
    exact List.Sublist.refl _
  · simp [hinter]

theorem Account.exists_calls {trace : Trace} (x : A.Account trace func) :
    ∃ calls, x.f.callSites? = some calls ∧
      x.sites = .ofList (calls.flatMap (A.sitesOf x.before.summaries x.f)) := by
  have hsites := x.sites_eq
  simp only [lockSites?, x.f_eq, Option.bind_eq_bind, Option.bind_some,
    Option.bind_eq_some_iff] at hsites
  obtain ⟨calls, hcalls, hsites⟩ := hsites
  exact ⟨calls, hcalls, (Option.some.inj hsites).symm⟩

theorem Account.entries_singleton {trace : Trace} (x : A.Account trace func)
    (hinter : A.config.interprocedural = false) (hlisted : x.f.listed.Nodup) :
    ∀ entry ∈ x.sites.entries, ∃ site, entry.2 = [site] := by
  obtain ⟨calls, hcalls, hsites⟩ := x.exists_calls
  have hinsts : ((calls.flatMap (A.sitesOf x.before.summaries x.f)).map (·.inst)).Sublist
      (calls.map (·.inst)) := by
    clear hcalls hsites
    induction calls with
    | nil => simp
    | cons call calls ih =>
      rw [List.flatMap_cons, List.map_append, List.map_cons, ← List.singleton_append]
      exact (insts_sitesOf hinter call).append ih
  have hnodup := hlisted.sublist (hinsts.trans (insts_callSites? hcalls))
  rw [hsites, SiteMap.entries_ofList hnodup]
  intro entry hentry
  obtain ⟨site, -, rfl⟩ := List.mem_map.mp hentry
  exact ⟨site, rfl⟩

theorem Account.nodup_insts {trace : Trace} (x : A.Account trace func) : x.sites.insts.Nodup := by
  obtain ⟨calls, -, hsites⟩ := x.exists_calls
  rw [hsites]
  exact SiteMap.nodup_insts_ofList _

theorem Examination.behind_eq_nil (x : A.Examination func b sites)
    (h : ∀ entry ∈ sites.entries, ∃ site, entry.2 = [site]) : x.behind = [] := by
  refine List.flatMap_eq_nil_iff.mpr fun entry hentry => ?_
  obtain ⟨site, hsite⟩ := h entry hentry
  rw [hsite, ← List.length_eq_zero_iff, List.length_tail]
  exact Nat.sub_eq_zero_of_le (List.length_filter_le _ [site])

end Routines

end Analysis

/-- A run and the search for pairs take as many instructions for an acquire of a lock, and for a
release, as there are such operations on it, less those that stand behind another one of the same
instruction. Without wrappers, and if no instruction is listed twice, there are none of these. -/
theorem Program.operations_add_up {p : Program} (hp : p.fault? = none) (source : AliasSource)
    (config : Config) (api : LockApi) :
    ∃ graph trace report, CallGraph.of? p = some graph ∧
      Analysis.visitAll ⟨p, source, config, api, graph⟩ = some trace.state ∧
      p.report? source config api = some report ∧
      List.Forall₂ (fun func statistic =>
          ∃ x : Analysis.Account ⟨p, source, config, api, graph⟩ trace func,
            x.statistic = statistic ∧ statistic.locks = x.locks.map (·.statistic) ∧
            ∀ e ∈ x.locks,
              Problem.of? source config p func x.body x.sites (Analysis.followed e.lock e.on) =
                some e.problem ∧
              e.statistic.usage = (x.body.findPairs e.problem.op).length ∧
              (∀ op, e.statistic.operations op =
                (x.body.insts.countP fun i => e.problem.op i == some op) +
                  e.behind.countP fun site => site.op == op) ∧
              (config.interprocedural = false → x.f.listed.Nodup → e.behind = []))
        p.defined report.functions := by
  obtain ⟨graph, trace, report, hgraph, hrun, hreport, hall⟩ := exists_accounts hp source config api
  refine ⟨graph, trace, report, hgraph, hrun, hreport, hall.imp ?_⟩
  rintro func _ ⟨x, rfl⟩
  refine ⟨x, rfl, x.statistics, fun e _ => ⟨e.posed, e.usage_statistic, ?_, ?_⟩⟩
  · exact e.operations_eq x.isSome_entry x.nodup_insts
  · exact fun hinter hlisted => e.behind_eq_nil (x.entries_singleton hinter hlisted)

/-- A function that takes two locks, and one that calls it with the same lock twice. -/
def doubled : Program where
  name := "m"
  globals := #["l"]
  functions := #[
    ⟨"rw_lock", ["m"], #[], #[]⟩,
    ⟨"both", ["a", "b"], #[⟨"a", [0, 1, 2]⟩],
      #[⟨none, 0, .call (.direct 0) [.arg 0]⟩, ⟨none, 0, .call (.direct 0) [.arg 1]⟩,
        ⟨none, 0, .ret none⟩]⟩,
    ⟨"main", [], #[⟨"a", [0, 1]⟩],
      #[⟨none, 0, .call (.direct 1) [.global 0, .global 0]⟩, ⟨none, 0, .ret none⟩]⟩]

def shortNames : Config :=
  { Config.default with acquire := ["rw_lock"], release := ["rw_unlock"] }

theorem doubled_operations_add_up : doubled.fault? = none ∧
    ∃ api, LockApi.of? shortNames = some api ∧
    ∃ graph trace report, CallGraph.of? doubled = some graph ∧
      doubled.report? .names shortNames api = some report ∧
      List.Forall₂ (fun func statistic =>
          ∃ x : Analysis.Account ⟨doubled, .names, shortNames, api, graph⟩ trace func,
            x.statistic = statistic ∧ ∀ e ∈ x.locks, ∀ op, e.statistic.operations op =
              (x.body.insts.countP fun i => e.problem.op i == some op) +
                e.behind.countP fun site => site.op == op)
        [1, 2] report.functions := by
  have hfault : doubled.fault? = none := by decide +kernel
  have hapi : (LockApi.of? shortNames).isSome := by decide +kernel
  obtain ⟨api, hapi⟩ := Option.isSome_iff_exists.mp hapi
  obtain ⟨graph, trace, report, hgraph, -, hreport, hall⟩ :=
    Program.operations_add_up hfault .names shortNames api
  have hdefined : doubled.defined = [1, 2] := by decide +kernel
  refine ⟨hfault, api, hapi, graph, trace, report, hgraph, hreport, hdefined ▸ hall.imp ?_⟩
  rintro func statistic ⟨x, hx, -, hlocks⟩
  exact ⟨x, hx, fun e he => (hlocks e he).2.2.1⟩

/-- Two acquires are counted for the call, which a run takes for one. -/
theorem doubled_acquire_seen_once : doubled.fault? = none ∧
    ∃ api graph s report main f b sites lock P, LockApi.of? shortNames = some api ∧
      CallGraph.of? doubled = some graph ∧
      Analysis.visitAll ⟨doubled, .names, shortNames, api, graph⟩ = some s ∧
      doubled.report? .names shortNames api = some report ∧
      report.function? "main" = some main ∧ main.locks.map (·.acquires) = [2] ∧
      doubled.functions[2]? = some f ∧ Body.of? f = some b ∧
      Analysis.lockSites? ⟨doubled, .names, shortNames, api, graph⟩ s.summaries 2 = some sites ∧
      Analysis.distinctLocks? ⟨doubled, .names, shortNames, api, graph⟩ 2 sites = some [lock] ∧
      Problem.of? .names shortNames doubled 2 b sites lock = some P ∧
      (P.body.insts.countP fun i => P.op i == some .acquire) = 1 := by
  have hfault : doubled.fault? = none := by decide +kernel
  have hrun : ((LockApi.of? shortNames).bind fun api => (CallGraph.of? doubled).bind fun graph =>
      (Analysis.visitAll ⟨doubled, .names, shortNames, api, graph⟩).bind fun s =>
      (doubled.report? .names shortNames api).bind fun report =>
      (report.function? "main").bind fun main => doubled.functions[2]?.bind fun f =>
      (Body.of? f).bind fun b =>
      (Analysis.lockSites? ⟨doubled, .names, shortNames, api, graph⟩ s.summaries 2).bind
        fun sites =>
      (Analysis.distinctLocks? ⟨doubled, .names, shortNames, api, graph⟩ 2 sites).bind
        fun locks => locks.head?.bind fun lock =>
      (Problem.of? .names shortNames doubled 2 b sites lock).bind fun P =>
      some (main.locks.map (·.acquires), locks.tail.length,
        P.body.insts.countP fun i => P.op i == some .acquire)) = some ([2], 0, 1) := by
    decide +kernel
  obtain ⟨api, hapi, hrun⟩ := Option.bind_eq_some_iff.mp hrun
  obtain ⟨graph, hgraph, hrun⟩ := Option.bind_eq_some_iff.mp hrun
  obtain ⟨s, hs, hrun⟩ := Option.bind_eq_some_iff.mp hrun
  obtain ⟨report, hreport, hrun⟩ := Option.bind_eq_some_iff.mp hrun
  obtain ⟨main, hmain, hrun⟩ := Option.bind_eq_some_iff.mp hrun
  obtain ⟨f, hf, hrun⟩ := Option.bind_eq_some_iff.mp hrun
  obtain ⟨b, hb, hrun⟩ := Option.bind_eq_some_iff.mp hrun
  obtain ⟨sites, hsites, hrun⟩ := Option.bind_eq_some_iff.mp hrun
  obtain ⟨locks, hlocks, hrun⟩ := Option.bind_eq_some_iff.mp hrun
  obtain ⟨lock, hlock, hrun⟩ := Option.bind_eq_some_iff.mp hrun
  obtain ⟨P, hP, hrun⟩ := Option.bind_eq_some_iff.mp hrun
  simp only [Option.some.injEq, Prod.mk.injEq] at hrun
  obtain ⟨hacquires, hone, hcount⟩ := hrun
  obtain ⟨rest, rfl⟩ := List.head?_eq_some_iff.mp hlock
  obtain rfl := List.length_eq_zero_iff.mp hone
  exact ⟨hfault, api, graph, s, report, main, f, b, sites, lock, P, hapi, hgraph, hs, hreport,
    hmain, hacquires, hf, hb, hsites, hlocks, hP, hcount⟩

end LockUsage
