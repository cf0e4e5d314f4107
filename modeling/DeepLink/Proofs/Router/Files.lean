import Mathlib.Data.List.Forall2
import DeepLink.Proofs.Outcome
import DeepLink.RouteFile

/-!
# The router of a route file

The entries of a route file are gone through once, and each is held against the names before it. An
entry is at fault if its name is one of these, or else if its template cannot be read
(`RouteEntry.Fault`); one that is not gives its route (`RouteEntry.fault_or_gives`). One lemma for
each case says what becomes of the router (`addEntries_of_fault`, `addEntries_of_gives`), and by
induction a file without faults gives the routes of all its entries, and every other file the first
fault in it.
-/

namespace DeepLink

/-! ## One entry -/

namespace RouteEntry

/-- What is wrong with an entry after others with the names: its name is one of these, or else its
template cannot be read. -/
inductive Fault (earlier : List String) (entry : RouteEntry) : RouteFileError → Prop
  | repeated (h : entry.name ∈ earlier) : Fault earlier entry (.duplicateName entry.name)
  | unreadable {fault : TemplateError} (h : entry.name ∉ earlier)
    (ht : Route.ofTemplate? entry.template = .error fault) :
    Fault earlier entry (.template entry.name fault)

/-- The entry stands for the route, with its name as the target. -/
def Gives (entry : RouteEntry) (kept : Route × String) : Prop :=
  Route.ofTemplate? entry.template = .ok kept.1 ∧ kept.2 = entry.name

variable {earlier : List String} {entry : RouteEntry}

theorem fault_or_gives (earlier : List String) (entry : RouteEntry) :
    (∃ e, entry.Fault earlier e) ∨ entry.name ∉ earlier ∧ ∃ kept, entry.Gives kept := by
  by_cases hm : entry.name ∈ earlier
  · exact .inl ⟨_, .repeated hm⟩
  · cases ht : Route.ofTemplate? entry.template with
    | error fault => exact .inl ⟨_, .unreadable hm ht⟩
    | ok route => exact .inr ⟨hm, (route, entry.name), ht, rfl⟩

theorem Fault.eq {e e' : RouteFileError} (h : entry.Fault earlier e) (h' : entry.Fault earlier e') :
    e = e' := by
  cases h with
  | repeated hm =>
    cases h' with
    | repeated _ => rfl
    | unreadable hn _ => exact absurd hm hn
  | unreadable hn ht =>
    cases h' with
    | repeated hm => exact absurd hm hn
    | unreadable _ ht' =>
      rw [ht] at ht'
      cases ht'
      rfl

theorem Gives.eq {kept kept' : Route × String} (h : entry.Gives kept) (h' : entry.Gives kept') :
    kept = kept' :=
  Prod.ext (Except.ok.inj (h.1.symm.trans h'.1)) (h.2.trans h'.2.symm)

theorem Gives.not_fault {kept : Route × String} (h : entry.Gives kept) (hn : entry.name ∉ earlier)
    (e : RouteFileError) : ¬ entry.Fault earlier e := by
  rintro (hm | ⟨-, ht⟩)
  · exact hn hm
  · cases h.1.symm.trans ht

/-- Of the names before an entry only counts which they are. -/
theorem Fault.of_mem_iff {others : List String} {e : RouteFileError}
    (hs : ∀ name, name ∈ earlier ↔ name ∈ others) (h : entry.Fault earlier e) :
    entry.Fault others e := by
  cases h with
  | repeated hm => exact .repeated ((hs _).mp hm)
  | unreadable hn ht => exact .unreadable (fun hm => hn ((hs _).mpr hm)) ht

end RouteEntry

/-! ## The entries in their order -/

namespace RouteFile

/-- What is wrong with the entry at an index, after others with the names. -/
def FaultAt (earlier : List String) (entries : List RouteEntry) (i : Nat) (e : RouteFileError) :
    Prop :=
  ∃ entry, entries[i]? = some entry ∧
    entry.Fault (earlier ++ (entries.take i).map RouteEntry.name) e

/-- What is wrong with the first entry that is at fault. -/
def FirstFault (earlier : List String) (entries : List RouteEntry) (e : RouteFileError) : Prop :=
  ∃ i, FaultAt earlier entries i e ∧ ∀ j < i, ∀ e', ¬ FaultAt earlier entries j e'

section Entries

variable {earlier seen : List String} {entry : RouteEntry} {entries : List RouteEntry}
  {router extended : Router String} {e : RouteFileError}

theorem faultAt_zero : FaultAt earlier (entry :: entries) 0 e ↔ entry.Fault earlier e := by
  simp [FaultAt]

theorem faultAt_succ {i : Nat} : FaultAt earlier (entry :: entries) (i + 1) e ↔
    FaultAt (earlier ++ [entry.name]) entries i e := by
  simp [FaultAt]

theorem not_firstFault_nil : ¬ FirstFault earlier [] e := by
  rintro ⟨i, ⟨entry, he, -⟩, -⟩
  simp at he

/-- Where the first entry is at fault, its fault is the first. -/
theorem firstFault_of_fault (h : entry.Fault earlier e) {e' : RouteFileError} :
    FirstFault earlier (entry :: entries) e' ↔ e = e' := by
  constructor
  · rintro ⟨i, hi, hfirst⟩
    cases i with
    | zero => exact h.eq (faultAt_zero.mp hi)
    | succ i => exact absurd (faultAt_zero.mpr h) (hfirst 0 i.succ_pos e)
  · rintro rfl
    exact ⟨0, faultAt_zero.mpr h, fun j hj => absurd hj j.not_lt_zero⟩

/-- Where the first entry is not at fault, the others are held against its name as well. -/
theorem firstFault_of_not_fault (h : ∀ e', ¬ entry.Fault earlier e') :
    FirstFault earlier (entry :: entries) e ↔ FirstFault (earlier ++ [entry.name]) entries e := by
  constructor
  · rintro ⟨i, hi, hfirst⟩
    cases i with
    | zero => exact absurd (faultAt_zero.mp hi) (h e)
    | succ i =>
      refine ⟨i, faultAt_succ.mp hi, fun j hj e' hf => ?_⟩
      exact hfirst (j + 1) (Nat.succ_lt_succ hj) e' (faultAt_succ.mpr hf)
  · rintro ⟨i, hi, hfirst⟩
    refine ⟨i + 1, faultAt_succ.mpr hi, fun j hj e' hf => ?_⟩
    cases j with
    | zero => exact h e' (faultAt_zero.mp hf)
    | succ j => exact hfirst j (Nat.lt_of_succ_lt_succ hj) e' (faultAt_succ.mp hf)

theorem addEntries_of_fault (router : Router String) (entries : List RouteEntry)
    (h : entry.Fault seen e) : addEntries seen router (entry :: entries) = .error e := by
  cases h with
  | repeated hm => exact if_pos hm
  | unreadable hn ht =>
    rw [addEntries, if_neg hn, Router.addOfTemplate?, ht]
    rfl

theorem addEntries_of_gives (router : Router String) (entries : List RouteEntry)
    {kept : Route × String} (hn : entry.name ∉ seen) (h : entry.Gives kept) :
    addEntries seen router (entry :: entries) =
      addEntries (entry.name :: seen) (router.add kept.1 kept.2) entries := by
  rw [addEntries, if_neg hn, Router.addOfTemplate?, h.1, h.2]
  rfl

/-- The router gets the routes of the entries, if these have names of their own and all can be read.
-/
theorem addEntries_eq_ok_iff : addEntries seen router entries = .ok extended ↔
    (entries.map RouteEntry.name).Nodup ∧ (∀ entry ∈ entries, entry.name ∉ seen) ∧
      ∃ kept, List.Forall₂ RouteEntry.Gives entries kept ∧
        extended = { router with routes := router.routes ++ kept } := by
  induction entries generalizing seen router with
  | nil =>
    constructor
    · rintro ⟨⟩
      exact ⟨.nil, by simp, [], .nil, by simp⟩
    · rintro ⟨-, -, kept, ⟨⟩, rfl⟩
      simp [addEntries]
  | cons entry entries ih =>
    rcases entry.fault_or_gives seen with ⟨e, he⟩ | ⟨hn, kept, hk⟩
    · rw [addEntries_of_fault router entries he]
      refine ⟨fun h => (by cases h), fun ⟨_, hnew, kept, hkept, _⟩ => ?_⟩
      cases hkept with
      | cons hk _ => exact absurd he (hk.not_fault (hnew entry List.mem_cons_self) e)
    · rw [addEntries_of_gives router entries hn hk, ih, List.map_cons, List.nodup_cons]
      constructor
      · rintro ⟨hnodup, hnew, more, hmore, rfl⟩
        refine ⟨⟨fun hm => ?_, hnodup⟩, ?_, kept :: more, .cons hk hmore, ?_⟩
        · obtain ⟨other, ho, he⟩ := List.mem_map.mp hm
          exact hnew other ho (he ▸ List.mem_cons_self)
        · exact List.forall_mem_cons.mpr
            ⟨hn, fun other ho hm => hnew other ho (List.mem_cons_of_mem _ hm)⟩
        · simp [Router.add]
      · rintro ⟨⟨hown, hnodup⟩, hnew, _, hkept, rfl⟩
        cases hkept with
        | @cons _ kept' _ more hk' hmore =>
          obtain rfl := hk.eq hk'
          refine ⟨hnodup, fun other ho hm => ?_, more, hmore, by simp [Router.add]⟩
          rcases List.mem_cons.mp hm with he | hm
          · exact hown (List.mem_map.mpr ⟨other, ho, he⟩)
          · exact hnew other (List.mem_cons_of_mem _ ho) hm

/-- Otherwise the first fault is told. -/
theorem addEntries_eq_error_iff (hs : ∀ name, name ∈ seen ↔ name ∈ earlier) :
    addEntries seen router entries = .error e ↔ FirstFault earlier entries e := by
  induction entries generalizing seen earlier router with
  | nil => exact ⟨fun h => (by cases h), fun h => absurd h not_firstFault_nil⟩
  | cons entry entries ih =>
    rcases entry.fault_or_gives seen with ⟨e', he⟩ | ⟨hn, kept, hk⟩
    · rw [addEntries_of_fault router entries he, firstFault_of_fault (he.of_mem_iff hs)]
      exact ⟨Except.error.inj, congrArg Except.error⟩
    · have hfree : ∀ e', ¬ entry.Fault earlier e' :=
        hk.not_fault fun hm => hn ((hs _).mpr hm)
      rw [addEntries_of_gives router entries hn hk, firstFault_of_not_fault hfree]
      exact ih fun name => by simp [hs, or_comm]

end Entries

/-- Each entry gives a route exactly if all of them can be read. -/
theorem exists_forall₂_gives_iff {entries : List RouteEntry} :
    (∃ kept, List.Forall₂ RouteEntry.Gives entries kept) ↔
      ∀ entry ∈ entries, ∃ route, Route.ofTemplate? entry.template = .ok route := by
  induction entries with
  | nil => exact ⟨fun _ entry hm => absurd hm List.not_mem_nil, fun _ => ⟨[], .nil⟩⟩
  | cons entry entries ih =>
    rw [List.forall_mem_cons, ← ih]
    constructor
    · rintro ⟨_, hkept⟩
      cases hkept with
      | @cons _ kept _ more hk hmore => exact ⟨⟨kept.1, hk.1⟩, more, hmore⟩
    · rintro ⟨⟨route, hr⟩, more, hmore⟩
      exact ⟨(route, entry.name) :: more, .cons ⟨hr, rfl⟩ hmore⟩

/-- **The router of a route file.** There is one exactly if the names are all different and every
template can be read. It is for the scheme of the file, and has the routes of the entries in their
order, with the names as targets. If there is none, the error is that of the first entry at fault:
its name, if that stands already further up, whatever its template; and else its name with the fault
of its template. -/
theorem router_eq_iff (f : RouteFile) :
    ((∃ r, f.router = .ok r) ↔ (f.routes.map RouteEntry.name).Nodup ∧
      ∀ entry ∈ f.routes, ∃ route, Route.ofTemplate? entry.template = .ok route) ∧
    (∀ r, f.router = .ok r ↔ (f.routes.map RouteEntry.name).Nodup ∧ r.scheme? = f.scheme? ∧
      List.Forall₂ RouteEntry.Gives f.routes r.routes) ∧
    ∀ e, f.router = .error e ↔ ∃ i, FaultAt [] f.routes i e ∧
      ∀ j < i, ∀ e', ¬ FaultAt [] f.routes j e' := by
  have hok : ∀ r, f.router = .ok r ↔ (f.routes.map RouteEntry.name).Nodup ∧
      r.scheme? = f.scheme? ∧ List.Forall₂ RouteEntry.Gives f.routes r.routes := by
    intro r
    rw [router, addEntries_eq_ok_iff]
    constructor
    · rintro ⟨hnodup, -, kept, hkept, rfl⟩
      exact ⟨hnodup, rfl, hkept⟩
    · rintro ⟨hnodup, hscheme, hkept⟩
      exact ⟨hnodup, fun _ _ => List.not_mem_nil, r.routes, hkept, by rw [← hscheme]; rfl⟩
  refine ⟨?_, hok, fun e => addEntries_eq_error_iff fun _ => Iff.rfl⟩
  rw [← exists_forall₂_gives_iff]
  constructor
  · rintro ⟨r, hr⟩
    obtain ⟨hnodup, -, hkept⟩ := (hok r).mp hr
    exact ⟨hnodup, r.routes, hkept⟩
  · rintro ⟨hnodup, kept, hkept⟩
    exact ⟨⟨f.scheme?, kept⟩, (hok _).mpr ⟨hnodup, rfl, hkept⟩⟩

/-- A name that stands twice, the second time with a template that cannot be read. -/
def menuTwice : RouteFile := ⟨some "app", [⟨"menu", "*"⟩, ⟨"menu", "(menu"⟩, ⟨"all", "(all"⟩]⟩

/-- The name is told, and not what is wrong with its template or with the one below. -/
theorem router_eq_iff_menuTwice :
    FaultAt [] menuTwice.routes 1 (.duplicateName "menu") ∧
      (∀ e, ¬ FaultAt [] menuTwice.routes 0 e) ∧
      menuTwice.router = .error (.duplicateName "menu") := by
  have hsecond : FaultAt [] menuTwice.routes 1 (.duplicateName "menu") :=
    ⟨⟨"menu", "(menu"⟩, rfl, .repeated List.mem_cons_self⟩
  have hlex : Token.ofTemplate? "*" = .ok [.mark .star] := by decide +kernel
  have hpath : Template.readPath [.mark .star] = .ok [.wildcard] := by cbv
  have hgives : RouteEntry.Gives ⟨"menu", "*"⟩ (Route.of [.wildcard] [], "menu") := by
    refine ⟨?_, rfl⟩
    rw [Route.ofTemplate?, hlex]
    show (Template.readPath [.mark .star] >>= _) = _
    rw [hpath]
    rfl
  have hfirst : ∀ e, ¬ FaultAt [] menuTwice.routes 0 e := by
    rintro e ⟨entry, he, hf⟩
    obtain rfl := Option.some.inj he
    exact hgives.not_fault List.not_mem_nil e hf
  refine ⟨hsecond, hfirst, (menuTwice.router_eq_iff.2.2 _).mpr ⟨1, hsecond, fun j hj => ?_⟩⟩
  obtain rfl : j = 0 := by omega
  exact hfirst

end RouteFile

end DeepLink
