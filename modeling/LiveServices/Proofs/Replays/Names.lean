import LiveServices.Proofs.Calm.Endings
import LiveServices.Proofs.Calm.Matches
import LiveServices.Proofs.Replays.Stages
import Mathlib.Data.List.Nodup

/-!
# Names of a replay

A replay knows services by their names. At each time the names that it knows are those that are
live, each stands for a service of the registry, and no two stand for the same one
(`Replay.Ready`). While a batch of registrations is under way there are also services whose names
are not known yet; they differ from the others and from each other, because the number of a
service is not used twice.

A ready replay can carry out every step that fits the live names, and is ready again
(`Ready.register`, `Ready.modify`, `Ready.unregister`, `Ready.read`, `Ready.know`).
-/

namespace LiveServices

/-! ## The hub of a replay -/

namespace Hub

/-- A calm hub whose importer is subscribed and in which no lock is taken, after this many
registrations. -/
structure InService (filter : ServiceFilter) (n : Nat) (h : Hub Entry) : Prop where
  calm : h.Calm
  idle : h.Idle
  linked : h.registry.Linked Replay.importer (some filter)
  issued : h.registry.Issued n

variable {c n : Nat} {filter : ServiceFilter} {link : Option ServiceFilter} {h h' : Hub Entry}
  {command : Command Entry} {answer : Answer} {id x : UInt64} {properties : Properties}

/-- What is put into the registry is found under its number, and the others as before. -/
theorem get?_put {r : ServiceReference} {books : Registry Entry}
    (hs : books.SameBooks h'.registry) (hbooks : books.services = (h.registry.put r).services) :
    h'.registry.get? r.id = some r ∧
    ∀ x, x ≠ r.id → h'.registry.get? x = h.registry.get? x := by
  refine ⟨?_, fun x hx => ?_⟩
  · rw [hs.get?, Registry.get?, hbooks]
    exact Roster.find?_insert_self
  · rw [hs.get?, Registry.get?, hbooks]
    exact Roster.find?_insert_of_ne hx.symm

/-- What the registry has after a registration. -/
theorem Calls.get?_registered (hcalls : h.Calls c link (.register properties) answer h') :
    let r := ServiceReference.new h.registry.nextService properties
    h'.registry.get? r.id = some r ∧
    ∀ x, x ≠ r.id → h'.registry.get? x = h.registry.get? x := by
  cases hcalls with
  | registered hr hch =>
    subst hr
    exact get?_put hch.registry rfl
  | unknown _ hcommand _ => rcases hcommand with heq | ⟨_, heq⟩ <;> cases heq

/-- What the registry has after a service got other properties. -/
theorem Calls.get?_modified (hcalls : h.Calls c link (.setProperties id properties) answer h')
    (hid : (h.registry.get? id).isSome = true) :
    h'.registry.get? id = some (.new id properties) ∧
    ∀ x, x ≠ id → h'.registry.get? x = h.registry.get? x := by
  cases hcalls with
  | modified _ hr hch =>
    subst hr
    exact get?_put hch.registry rfl
  | unknown hn hcommand _ =>
    rcases hcommand with heq | ⟨_, heq⟩
    · cases heq
    · obtain ⟨rfl, rfl⟩ := Command.setProperties.inj heq
      rw [hn] at hid
      cases hid

/-- What the registry has after a service was taken away. -/
theorem Calls.get?_unregistered (hcalls : h.Calls c link (.unregister id) answer h') :
    h'.registry.get? id = none ∧ ∀ x, x ≠ id → h'.registry.get? x = h.registry.get? x := by
  cases hcalls with
  | unregistered _ hch =>
    refine ⟨?_, fun x hx => ?_⟩
    · rw [hch.registry.get?]
      exact Roster.find?_erase_self
    · rw [hch.registry.get?]
      exact Roster.find?_erase_of_ne hx.symm
  | unknown hn hcommand hch =>
    rcases hcommand with heq | ⟨_, heq⟩
    · obtain rfl := Command.unregister.inj heq
      exact ⟨(hch.registry.get? _).trans hn, fun x _ => hch.registry.get? x⟩
    · cases heq

/-- What is in the registry stays there when something is put into it. -/
theorem isSome_get?_put {r : ServiceReference} {books : Registry Entry}
    (hs : books.SameBooks h'.registry) (hbooks : books.services = (h.registry.put r).services)
    (hx : (h.registry.get? x).isSome = true) : (h'.registry.get? x).isSome = true := by
  obtain ⟨hself, hother⟩ := get?_put hs hbooks
  by_cases hr : x = r.id
  · rw [hr, hself]
    rfl
  · rwa [hother x hr]

/-- A service stays in the registry until it is taken away. -/
theorem Calls.isSome_get? (hcalls : h.Calls c link command answer h')
    (hx : (h.registry.get? x).isSome = true) (hne : command ≠ .unregister x) :
    (h'.registry.get? x).isSome = true := by
  cases hcalls with
  | registered _ hch => exact isSome_get?_put hch.registry rfl hx
  | modified _ _ hch => exact isSome_get?_put hch.registry rfl hx
  | @unregistered id _ _ hf hch =>
    have hother : id ≠ x := fun heq => hne (congrArg Command.unregister heq)
    rw [hch.registry.get?]
    exact (congrArg Option.isSome (Roster.find?_erase_of_ne hother)).trans hx
  | unknown _ _ hch =>
    rw [hch.registry.get?]
    exact hx

namespace InService

theorem call (hs : h.InService filter n)
    (hcalls : h.Calls Replay.importer (some filter) command answer h') (hcalm : h'.Calm)
    (hn : n + (if command.isRegister = true then 1 else 0) < 2 ^ 64) :
    h'.InService filter (n + if command.isRegister = true then 1 else 0) where
  calm := hcalm
  idle d := (hcalls.locks d).trans (hs.idle d)
  linked := hcalls.linked hs.linked
  issued := hcalls.issued hs.issued hn

/-- A registration adds a service to the registry that was not there. -/
theorem register (hs : h.InService filter n) (hn : n + 1 < 2 ^ 64) (properties : Properties) :
    ∃ r h', (Run.register Replay.nested properties).run h = .ok (.ok r, h') ∧
    h'.InService filter (n + 1) ∧ h.registry.get? r.id = none ∧
    ∀ x, x = r.id ∨ (h.registry.get? x).isSome = true → (h'.registry.get? x).isSome = true := by
  obtain ⟨h', hrun, hcalls, hcalm⟩ :=
    Run.register_total Replay.nested hs.calm hs.linked properties
  refine ⟨_, h', hrun, hs.call hcalls hcalm hn, ?_, fun x hx => ?_⟩
  · refine List.find?_eq_none.2 fun s hmem heq => ?_
    exact hs.issued.next_notMem hn s hmem (eq_of_beq heq)
  · rcases hx with rfl | hx
    · exact congrArg Option.isSome hcalls.get?_registered.1
    · exact hcalls.isSome_get? hx (by simp)

/-- A service that is there can get other properties. -/
theorem modify (hs : h.InService filter n) (hn : n < 2 ^ 64)
    (hid : (h.registry.get? id).isSome = true) (properties : Properties) :
    ∃ r h', (Run.setProperties Replay.nested id properties).run h = .ok (.ok r, h') ∧
    h'.InService filter n ∧
    ∀ x, (h.registry.get? x).isSome = true → (h'.registry.get? x).isSome = true := by
  obtain ⟨old, hold⟩ := Option.isSome_iff_exists.1 hid
  obtain ⟨h', hrun, hcalls, hcalm⟩ :=
    Run.setProperties_total Replay.nested hs.calm hs.linked hold properties
  exact ⟨_, h', hrun, hs.call hcalls hcalm hn, fun x hx => hcalls.isSome_get? hx (by simp)⟩

/-- A service that is there can be taken away, and the others stay. -/
theorem unregister (hs : h.InService filter n) (hn : n < 2 ^ 64)
    (hid : (h.registry.get? id).isSome = true) :
    ∃ h', (Run.unregister Replay.nested id).run h = .ok (.ok (), h') ∧
    h'.InService filter n ∧
    ∀ x, (h.registry.get? x).isSome = true → x ≠ id → (h'.registry.get? x).isSome = true := by
  obtain ⟨r, hr⟩ := Option.isSome_iff_exists.1 hid
  obtain ⟨h', hrun, hcalls, hcalm⟩ := Run.unregister_total Replay.nested hs.calm hs.linked hr
  refine ⟨h', hrun, hs.call hcalls hcalm hn, fun x hx hne => hcalls.isSome_get? hx fun heq => ?_⟩
  exact hne (Command.unregister.inj heq).symm

end InService

end Hub

/-! ## What a replay knows -/

namespace Replay

/-- A replay whose names are those that are live, with registered services whose names it has not
learnt yet. -/
structure Ready (filter : ServiceFilter) (n : Nat) (live : List String) (pending : List UInt64)
    (p : Replay) : Prop where
  hub : p.hub.InService filter n
  names : (p.names.map Prod.fst).Perm live
  nodup : live.Nodup
  distinct : (p.names.map Prod.snd ++ pending).Nodup
  present : ∀ id ∈ p.names.map Prod.snd ++ pending, (p.hub.registry.get? id).isSome = true

variable {filter : ServiceFilter} {n : Nat} {live : List String} {pending : List UInt64}
  {p p' : Replay} {name : String} {properties : Properties} {id : UInt64}

theorem mem_names_of_lookup (hid : p.names.lookup name = some id) : (name, id) ∈ p.names := by
  obtain ⟨l₁, l₂, hsplit, -⟩ := List.lookup_eq_some_iff.1 hid
  simp [hsplit]

namespace Ready

/-- Being ready does not depend on what was told. -/
theorem of_eq (hr : p.Ready filter n live pending) (hhub : p'.hub = p.hub)
    (hnames : p'.names = p.names) : p'.Ready filter n live pending := by
  obtain ⟨hub, names, nodup, distinct, present⟩ := hr
  rw [← hhub] at hub present
  rw [← hnames] at names distinct present
  exact ⟨hub, names, nodup, distinct, present⟩

/-- The order of the services whose names are to be learnt does not matter. -/
theorem perm {pending' : List UInt64} (hr : p.Ready filter n live pending)
    (hp : pending.Perm pending') : p.Ready filter n live pending' where
  hub := hr.hub
  names := hr.names
  nodup := hr.nodup
  distinct := (hp.append_left _).nodup_iff.1 hr.distinct
  present id hid := hr.present id ((hp.append_left _).mem_iff.2 hid)

/-- A live name stands for a service of the registry. -/
theorem lookup (hr : p.Ready filter n live pending) (hname : name ∈ live) :
    ∃ id, p.names.lookup name = some id ∧ (name, id) ∈ p.names ∧
    (p.hub.registry.get? id).isSome = true := by
  have hmem : name ∈ p.names.map Prod.fst := hr.names.mem_iff.2 hname
  obtain ⟨entry, hentry, rfl⟩ := List.mem_map.1 hmem
  obtain ⟨id, hid⟩ := Option.isSome_iff_exists.1
    (List.lookup_isSome_iff.2 ⟨entry, hentry, beq_self_eq_true entry.1⟩)
  have hentry' : (entry.1, id) ∈ p.names := mem_names_of_lookup hid
  refine ⟨id, hid, hentry', hr.present id (List.mem_append_left _ ?_)⟩
  exact List.mem_map_of_mem hentry'

/-- A registration makes a service whose name is to be learnt. -/
theorem register (hr : p.Ready filter n live pending) (name : String) (properties : Properties)
    (hn : n + 1 < 2 ^ 64) :
    ∃ id p', carryOut (.register name properties) p = .ok (some id, p') ∧
    p'.Ready filter (n + 1) live (id :: pending) := by
  obtain ⟨r, h', hrun, hserving, hnew, hstays⟩ :=
    hr.hub.register hn (serviceProperties name properties)
  refine ⟨r.id, p.after h', register_eq_ok.2 ⟨r, h', hrun, rfl, rfl⟩,
    hserving, hr.names, hr.nodup, ?_, fun id hid => ?_⟩
  · have hother : r.id ∉ p.names.map Prod.snd ++ pending := by
      intro hold
      have hpresent := hr.present r.id hold
      rw [hnew] at hpresent
      cases hpresent
    exact List.perm_middle.nodup_iff.2 (List.nodup_cons.2 ⟨hother, hr.distinct⟩)
  · refine hstays id ((List.mem_cons.1 (List.perm_middle.mem_iff.1 hid)).imp_right ?_)
    exact hr.present id

theorem modify (hr : p.Ready filter n live []) (hn : n < 2 ^ 64) (hname : name ∈ live) :
    ∃ p', carryOut (.modify name properties) p = .ok (none, p') ∧ p'.Ready filter n live [] := by
  obtain ⟨id, hid, -, hpresent⟩ := hr.lookup hname
  obtain ⟨r, h', hrun, hserving, hstays⟩ :=
    hr.hub.modify hn hpresent (serviceProperties name properties)
  exact ⟨p.after h', modify_eq_ok.2 ⟨id, r, h', hid, hrun, rfl, rfl⟩,
    hserving, hr.names, hr.nodup, hr.distinct, fun x hx => hstays x (hr.present x hx)⟩

/-- A name is forgotten with its service, and no other name stands for the service. -/
theorem unregister (hr : p.Ready filter n live []) (hn : n < 2 ^ 64) (hname : name ∈ live) :
    ∃ p', carryOut (.unregister name) p = .ok (none, p') ∧
    p'.Ready filter n (live.erase name) [] := by
  obtain ⟨id, hid, hentry, hpresent⟩ := hr.lookup hname
  obtain ⟨h', hrun, hserving, hstays⟩ := hr.hub.unregister hn hpresent
  have hdistinct : (p.names.map Prod.snd).Nodup := by simpa using hr.distinct
  refine ⟨(p.forgetting name).after h', unregister_eq_ok.2 ⟨id, h', hid, hrun, rfl, rfl⟩,
    hserving, ?_, hr.nodup.erase name, ?_, fun x hx => ?_⟩
  · rw [hr.nodup.erase_eq_filter]
    refine List.Perm.trans (.of_eq ?_) (hr.names.filter fun other => other != name)
    rw [List.filter_map]
    rfl
  · rw [List.append_nil]
    exact hdistinct.sublist (List.filter_sublist.map _)
  · rw [List.append_nil] at hx
    obtain ⟨entry, hfound, rfl⟩ := List.mem_map.1 hx
    obtain ⟨hfound, hother⟩ := List.mem_filter.1 hfound
    have hne : entry.2 ≠ id := by
      intro heq
      have hsame : entry = (name, id) := List.inj_on_of_nodup_map hdistinct hfound hentry heq
      rw [hsame] at hother
      simp at hother
    exact hstays _ (hr.present _ (List.mem_append_left _ (List.mem_map_of_mem hfound))) hne

theorem read (hr : p.Ready filter n live []) :
    ∃ p', carryOut .read p = .ok (none, p') ∧ p'.Ready filter n live [] :=
  ⟨_, read_eq_ok.2 ⟨rfl, rfl⟩, hr.of_eq rfl rfl⟩

/-- A new name is learnt for a service. -/
theorem know (hr : p.Ready filter n live (id :: pending)) (hname : name ∉ live) :
    (p.knowing name id).Ready filter n (live ++ [name]) pending := by
  have hnone : ∀ entry ∈ p.names, (entry.1 != name) = true := by
    intro entry hentry
    refine bne_iff_ne.2 fun heq => hname (hr.names.mem_iff.1 ?_)
    exact heq ▸ List.mem_map_of_mem hentry
  have hnames : (p.knowing name id).names = (name, id) :: p.names :=
    congrArg _ (List.filter_eq_self.2 hnone)
  have hids : ((p.knowing name id).names.map Prod.snd ++ pending).Perm
      (p.names.map Prod.snd ++ id :: pending) := by
    rw [hnames]
    exact List.perm_middle.symm
  refine ⟨hr.hub, ?_, ?_, hids.nodup_iff.2 hr.distinct, fun x hx => ?_⟩
  · rw [hnames]
    exact (hr.names.cons name).trans (List.perm_append_singleton name live).symm
  · exact List.nodup_append.2 ⟨hr.nodup, List.nodup_singleton name, fun a ha b hb heq =>
      hname (List.mem_singleton.1 hb ▸ heq ▸ ha)⟩
  · exact hr.present x (hids.mem_iff.1 hx)

end Ready

end Replay

end LiveServices
