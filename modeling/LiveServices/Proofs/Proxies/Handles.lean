import LiveServices.Proofs.Index.Identified
import LiveServices.Proofs.Releases.Conservation
import Mathlib.Data.List.Pairwise

/-!
# Handles of proxies

A proxy is valid until its number is released, and the number is that of the attempt that made
it. So the proxies of one service differ in their numbers although they are equal. This file
ties the three places in which a number occurs to each other: what is in the index was made
before, what was released is in the trace (`Hub.Recounted`), and in a collection of proxies the
entry that the index holds is the proxy of its own number (`Hub.Proxied`). With the conservation
of release actions it follows that a proxy is valid exactly as long as the index holds it
(`Hub.valid_iff_held`).
-/

namespace LiveServices

variable {E : Type}

/-- An entry is made once: a number names one collection and one service. -/
theorem Hub.Numbered.created_unique {h : Hub E} (hn : h.Numbered) {c d n : Nat} {id id' : UInt64}
    {b b' : Bool} (hc : .created c n id b ∈ h.trace) (hd : .created d n id' b' ∈ h.trace) :
    c = d ∧ id = id' ∧ b = b' := by
  have hpair := List.pairwise_filterMap.1 hn.made
  have hsymm : Std.Symm fun m m' : Moment E =>
      ∀ x, m.made? = some x → ∀ y, m'.made? = some y → x ≠ y :=
    ⟨fun _ _ hne x hx y hy => (hne y hy x hx).symm⟩
  by_cases heq : (.created c n id b : Moment E) = .created d n id' b'
  · cases heq
    exact ⟨rfl, rfl, rfl⟩
  · exact absurd rfl (hpair.forall hc hd heq n rfl n rfl)

/-! ## Numbers and the trace -/

/-- What was released is in the trace, and so is what made the entries of the indexes. -/
structure Hub.Recounted (h : Hub E) : Prop where
  released : ∀ n, n ∈ h.released ↔
    ∃ c id census announced, .releasing c n id census announced ∈ h.trace
  created : ∀ c, ∀ x ∈ (h.collection c).index,
    .created c x.serial x.id x.release.isSome ∈ h.trace

namespace Hub.Recounted

variable {h h' : Hub E} {c : Nat} {recent : List (Moment E)}

theorem mem_append_iff (ht : h'.trace = recent ++ h.trace)
    (hm : ∀ c n id census announced, .releasing c n id census announced ∉ recent) (n : Nat) :
    (∃ c id census announced, .releasing c n id census announced ∈ h'.trace) ↔
      ∃ c id census announced, .releasing c n id census announced ∈ h.trace := by
  constructor
  · rintro ⟨c, id, census, announced, hmem⟩
    rw [ht] at hmem
    exact ⟨c, id, census, announced,
      (List.mem_append.1 hmem).resolve_left (hm c n id census announced)⟩
  · rintro ⟨c, id, census, announced, hmem⟩
    exact ⟨c, id, census, announced, ht ▸ List.mem_append_right _ hmem⟩

/-- Nothing was released, and each index has what it had. -/
theorem of_sublist (hk : h.Recounted) (recent : List (Moment E)) (hr : h'.released = h.released)
    (ht : h'.trace = recent ++ h.trace)
    (hm : ∀ c n id census announced, .releasing c n id census announced ∉ recent)
    (hs : ∀ c, (h'.collection c).index.Sublist (h.collection c).index) : h'.Recounted where
  released n := by rw [hr, hk.released, mem_append_iff ht hm]
  created d x hx := ht ▸ List.mem_append_right _ (hk.created d x ((hs d).subset hx))

instance : Stable (Recounted (E := E)) where
  aside ha hk := by
    obtain ⟨recent, ht, hm⟩ := ha.trace
    exact hk.of_sublist recent ha.released ht (fun _ _ _ _ _ hmem => hm _ hmem)
      fun c => (ha.stock c).index ▸ .refl _

/-- In the hub of some plans nothing was released. -/
theorem ofPlans (plans : List (Plan E)) : (Hub.ofPlans plans).Recounted := by
  obtain ⟨hindex, htrace⟩ := Hub.blank_ofPlans plans
  have hreleased : (Hub.ofPlans plans).released = [] := by
    refine ofPlans_induction (I := fun h => h.released = []) plans rfl fun h plan _ hh => ?_
    rcases addCollection_eq h plan with ⟨k, -, hadd⟩ | hadd
    · rw [hadd]
      exact hh
    · rw [hadd]
      exact hh
  refine ⟨fun n => ?_, fun c x hx => ?_⟩
  · simp [hreleased, htrace]
  · rw [hindex] at hx
    cases hx

variable [ServiceEntry E]

theorem considered {r : ServiceReference} {result : Except Trouble (Admission E)}
    (hk : h.Recounted) (hc : Considered c r h result h') : h'.Recounted := by
  cases hc with
  | ignored =>
    exact hk.of_sublist [] rfl rfl (fun _ _ _ _ _ => List.not_mem_nil) fun _ => .refl _
  | failed | panicked =>
    exact hk.of_sublist [.attempted c (h.attempts + 1) r.id] rfl rfl
      (fun _ _ _ _ _ hmem => by simp at hmem) fun _ => .refl _
  | @refused _ _ release =>
    exact hk.of_sublist [.created c (h.attempts + 1) r.id release.isSome,
      .attempted c (h.attempts + 1) r.id] rfl rfl
      (fun _ _ _ _ _ hmem => by simp at hmem) fun _ => .refl _
  | @admitted recent entry release ho hn hm ht hs =>
    have hmade : (h.creation c r.id release.isSome).Recounted :=
      hk.of_sublist [.created c (h.attempts + 1) r.id release.isSome,
        .attempted c (h.attempts + 1) r.id] rfl rfl
        (fun _ _ _ _ _ hmem => by simp at hmem) fun _ => .refl _
    refine ⟨hmade.released, fun d x hx => ?_⟩
    rw [collection_setTo] at hx
    split at hx
    · next hd =>
      -- the new holding was made just now, and it has the number of this attempt
      obtain rfl | hx := Roster.mem_insert hx
      · rw [hd.1]
        exact List.mem_cons_self
      · exact hmade.created d x (hd.1 ▸ hx)
    · exact hmade.created d x hx

end Hub.Recounted

namespace Run

variable [ServiceEntry E]

/-- Every kind of step keeps the account of the numbers. -/
theorem steps_recounted : Steps (E := E) (Hub.Preserves Hub.Recounted) where
  considered _ _ _ _ _ hr hk := hk.considered (consider_ok hr)
  retracted c id h result h' hr hk := by
    have hc := retract_ok hr
    refine hk.of_sublist [] ?_ ?_ (fun _ _ _ _ _ => List.not_mem_nil)
      (index_retracted hc)
    · cases hc <;> rfl
    · cases hc <;> rfl
  cleared c h u h' hr hk := by
    have hsub := index_clear hr
    obtain ⟨recent, -, rfl⟩ := clear_ok hr
    exact hk.of_sublist [] rfl rfl (fun _ _ _ _ _ => List.not_mem_nil) hsub
  called h tag callback glimpse hk :=
    hk.of_sublist [.called tag callback glimpse] rfl rfl
      (fun _ _ _ _ _ hmem => by simp at hmem) fun _ => .refl _
  released h c serial service census announced hk := by
    refine ⟨fun n => ?_, fun d x hx => List.mem_cons_of_mem _ (hk.created d x hx)⟩
    show n ∈ serial :: h.released ↔ ∃ d id census' announced', _ ∈ _ :: h.trace
    simp only [List.mem_cons, hk.released, Moment.releasing.injEq]
    constructor
    · rintro (rfl | ⟨d, id, census', announced', hmem⟩)
      · exact ⟨c, service, census, announced, .inl ⟨rfl, rfl, rfl, rfl, rfl⟩⟩
      · exact ⟨d, id, census', announced', .inr hmem⟩
    · rintro ⟨d, id, census', announced', ⟨-, rfl, -⟩ | hmem⟩
      · exact .inl rfl
      · exact .inr ⟨d, id, census', announced', hmem⟩
  lifecycle c l h u h' hr hk := by
    obtain ⟨hsame, ht⟩ := addLifecycleListener_same hr
    refine hk.of_sublist [] ?_ ht (fun _ _ _ _ _ => List.not_mem_nil)
      fun d => (hsame d).index ▸ .refl _
    obtain ⟨recent, -, rfl⟩ := addLifecycleListener_ok hr
    rfl
  state c l h u h' hr hk := by
    obtain ⟨hsame, ht⟩ := addStateListener_same hr
    refine hk.of_sublist [] ?_ ht (fun _ _ _ _ _ => List.not_mem_nil)
      fun d => (hsame d).index ▸ .refl _
    obtain ⟨recent, -, rfl⟩ := addStateListener_ok hr
    rfl

end Run

/-! ## Collections of proxies -/

/-- The collection is one of proxies: the index holds each under its own number, and each came
with a release action. -/
structure Hub.Proxied (c : Nat) (h : Hub Entry) : Prop where
  factory : (h.collection c).factory = .proxy
  held : ∀ x ∈ (h.collection c).index,
    x.entry = .proxy x.serial x.reference ∧ x.release = some ⟨false, .silent⟩
  made : ∀ n id hasRelease, .created c n id hasRelease ∈ h.trace → hasRelease = true

namespace Hub.Proxied

variable {c d : Nat} {h h' : Hub Entry}

/-- Each index has what it had, and nothing else was made for the collection. -/
theorem of_sublist (hp : h.Proxied c)
    (hf : (h'.collection c).factory = (h.collection c).factory)
    (hs : (h'.collection c).index.Sublist (h.collection c).index)
    (ht : ∀ n id b, .created c n id b ∈ h'.trace → b = true ∨ .created c n id b ∈ h.trace) :
    h'.Proxied c where
  factory := hf.trans hp.factory
  held x hx := hp.held x (hs.subset hx)
  made n id b hmem := (ht n id b hmem).elim (fun hb => hb) (hp.made n id b)

instance (c : Nat) : Stable (Proxied c) where
  aside ha hp := by
    obtain ⟨recent, ht, hm⟩ := ha.trace
    refine hp.of_sublist (ha.stock c).factory ((ha.stock c).index ▸ .refl _) fun n id b hmem => ?_
    rw [ht] at hmem
    exact .inr ((List.mem_append.1 hmem).resolve_left fun hmem => hm _ hmem)

/-- What the factory of proxies makes. -/
theorem create_eq {serial : Nat} {r : ServiceReference} {entry : Entry}
    {release : Option (Release Entry)} (hp : h.Proxied c)
    (hm : (h.collection c).factory.create serial r = .made entry release) :
    entry = .proxy serial r ∧ release = some ⟨false, .silent⟩ := by
  rw [hp.factory] at hm
  cases hm
  exact ⟨rfl, rfl⟩

theorem considered {r : ServiceReference} {result : Except Trouble (Admission Entry)}
    (hp : h.Proxied c) (hc : Considered d r h result h') : h'.Proxied c := by
  have hcreation : ∀ {entry : Entry} {release : Option (Release Entry)},
      (h.collection d).factory.create (h.attempts + 1) r = .made entry release →
      (h.creation d r.id release.isSome).Proxied c := by
    intro entry release hm
    refine hp.of_sublist rfl (.refl _) fun n id b hmem => ?_
    -- an entry that is made for this collection is a proxy
    simp only [Hub.creation, Hub.attempt, Hub.trace_record, List.mem_cons,
      Moment.created.injEq] at hmem
    rcases hmem with ⟨rfl, -, -, rfl⟩ | hmem | hmem
    · rw [(hp.create_eq hm).2]
      exact .inl rfl
    · cases hmem
    · exact .inr hmem
  cases hc with
  | ignored => exact hp.of_sublist rfl (.refl _) fun _ _ _ => .inr
  | failed | panicked =>
    exact hp.of_sublist rfl (.refl _) fun _ _ _ hmem => .inr (by simpa [Hub.attempt] using hmem)
  | refused ho hn hm ht hs =>
    have hmade := hcreation hm
    exact ⟨hmade.factory, hmade.held, hmade.made⟩
  | admitted ho hn hm ht hs =>
    have hmade := hcreation hm
    refine ⟨?_, fun x hx => ?_, hmade.made⟩
    · rw [collection_setTo]
      split
      · next hd =>
        rw [hd.1] at hmade
        exact hmade.factory
      · exact hmade.factory
    · rw [collection_setTo] at hx
      split at hx
      · next hd =>
        obtain rfl | hx := Roster.mem_insert hx
        · exact (hd.1 ▸ hp).create_eq hm
        · exact hp.held x (hd.1 ▸ hx)
      · exact hmade.held x hx

end Hub.Proxied

namespace Run

/-- Every kind of step leaves a collection of proxies one of proxies. -/
theorem steps_proxied (c : Nat) : Steps (Hub.Preserves (Hub.Proxied c)) where
  considered _ _ _ _ _ hr hp := hp.considered (consider_ok hr)
  retracted d id h result h' hr hp := by
    have hc := retract_ok hr
    refine hp.of_sublist ?_ (index_retracted hc c) fun n id b hmem => ?_
    · by_cases hd : c = d
      · subst hd
        exact hc.toSection.factory
      · rw [hc.toSection.others c hd]
    · cases hc <;> exact .inr hmem
  cleared d h u h' hr hp := by
    have hs := section_of_clear hr
    have hsub := index_clear hr c
    obtain ⟨recent, -, rfl⟩ := clear_ok hr
    refine hp.of_sublist ?_ hsub fun _ _ _ => .inr
    by_cases hd : c = d
    · subst hd
      exact hs.factory
    · rw [hs.others c hd]
  called h tag callback glimpse hp := hp.of_sublist rfl (.refl _) fun _ _ _ hmem =>
    .inr (by simpa using hmem)
  released h d serial service census announced hp := hp.of_sublist rfl (.refl _)
    fun _ _ _ hmem => .inr (by simpa using hmem)
  lifecycle d l h u h' hr hp := by
    obtain ⟨hsame, ht⟩ := addLifecycleListener_same hr
    exact hp.of_sublist (hsame c).factory ((hsame c).index ▸ .refl _) fun _ _ _ hmem =>
      .inr (ht ▸ hmem)
  state d l h u h' hr hp := by
    obtain ⟨hsame, ht⟩ := addStateListener_same hr
    exact hp.of_sublist (hsame c).factory ((hsame c).index ▸ .refl _) fun _ _ _ hmem =>
      .inr (ht ▸ hmem)

end Run

/-- A collection of proxies that was just built. -/
theorem Hub.Proxied.ofPlans {plans : List (Plan Entry)} {c : Nat}
    (hf : ((Hub.ofPlans plans).collection c).factory = .proxy) : (Hub.ofPlans plans).Proxied c := by
  obtain ⟨hindex, htrace⟩ := Hub.blank_ofPlans plans
  refine ⟨hf, fun x hx => ?_, fun n id b hmem => ?_⟩
  · rw [hindex] at hx
    cases hx
  · rw [htrace] at hmem
    cases hmem

/-! ## Valid and held -/

section Runs

variable {plans : List (Plan Entry)} {depth : Nat} {commands : List (Command Entry)}
  {answers : List Answer} {h : Hub Entry} {c : Nat}
  (hr : (Hub.ofPlans plans).runAll depth commands = .ok (answers, h))
include hr

theorem Hub.recounted_runAll : h.Recounted :=
  Run.keeps_runAll (Run.keeps_run (fun _ hn => Run.steps_recounted.course hn) depth) hr
    (.ofPlans plans)

theorem Hub.proxied_runAll (hf : (h.collection c).factory = .proxy) : h.Proxied c := by
  rw [((Hub.onward_runAll hr).collection c).factory] at hf
  exact Run.keeps_runAll (Run.keeps_run (fun _ hn => (Run.steps_proxied c).course hn) depth) hr
    (.ofPlans hf)

/-- A release belongs to the entry that was made under its number. -/
theorem Hub.created_of_releasing {d n : Nat} {id : UInt64} {census : Census} {announced : Bool}
    (hmem : .releasing d n id census announced ∈ h.trace) : .created d n id true ∈ h.trace :=
  ((releases_conserved hr d).2.1 n id census announced hmem).1

/-- **Valid and held.** A proxy that was made for a collection is valid if and only if it is the
entry that the index holds for its service. -/
theorem Hub.valid_iff_held (hf : (h.collection c).factory = .proxy) {n : Nat} {id : UInt64}
    {b : Bool} (hmade : .created c n id b ∈ h.trace) :
    n ∉ h.released ↔ ∃ x, Roster.find? Holding.id id (h.collection c).index = some x ∧
      x.entry = .proxy n x.reference := by
  have hproxied := Hub.proxied_runAll hr hf
  have hrecounted := Hub.recounted_runAll hr
  obtain ⟨hnum, hall⟩ := Hub.Numbered.promises_eq hr
  constructor
  · intro hvalid
    obtain rfl := hproxied.made n id b hmade
    -- what was promised and has not run is kept in the index
    have hpromised : 0 < h.trace.countP
        (Moment.promises c fun serial service => serial == n && service == id) :=
      List.countP_pos_iff.2 ⟨_, hmade, by simp [Moment.promises]⟩
    have hnone : h.trace.countP
        (Moment.releases c fun serial service => serial == n && service == id) = 0 := by
      refine List.countP_eq_zero.2 fun m hm hreleases => hvalid ?_
      cases m with
      | releasing d serial service census announced =>
        simp only [Moment.releases, Bool.and_eq_true, beq_iff_eq] at hreleases
        obtain ⟨-, rfl, -⟩ := hreleases
        exact (hrecounted.released serial).2 ⟨d, service, census, announced, hm⟩
      | _ => cases hreleases
    have hkept := hall c fun serial service => serial == n && service == id
    obtain ⟨x, hx, hq⟩ := List.countP_pos_iff.1 (show 0 < (h.collection c).pending
      (fun serial service => serial == n && service == id) by omega)
    simp only [Bool.and_eq_true, beq_iff_eq] at hq
    obtain ⟨⟨rfl, rfl⟩, -⟩ := hq
    exact ⟨x, Collection.find?_of_mem (hnum.identities c) hx, (hproxied.held x hx).1⟩
  · rintro ⟨x, hfind, hentry⟩ hreleased
    have hx := List.mem_of_find?_eq_some hfind
    obtain rfl : x.serial = n := by
      have := (hproxied.held x hx).1.symm.trans hentry
      exact (Entry.proxy.inj this).1
    obtain ⟨d, id', census, announced, hmem⟩ := (hrecounted.released x.serial).1 hreleased
    -- the number was given to this collection, so no other one released it
    obtain ⟨rfl, -, -⟩ := hnum.created_unique hmade (Hub.created_of_releasing hr hmem)
    exact (hnum.released c x.serial id' census announced hmem).2.1 (List.mem_map_of_mem hx)

end Runs

end LiveServices
