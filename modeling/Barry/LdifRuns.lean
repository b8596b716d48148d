import Barry.LdifDump

/-!
# Runs of calls on the attribute map

The constructor of `ContactLdif` maps the usual attributes, and then `Map`, `Unmap`,
`SetObjectClass` and `SetObjectOrder` are called in any order. As long as every call is `Allowed`, a
name is found if and only if it is mapped, and contacts are written with each attribute once, in the
assigned order (`consistent_of_runs`). With an order that puts another attribute in between, the
name is mapped and not found (`find?_eq_none_of_setObjectOrder`).
-/

namespace Barry.LdifMap

open LdifKey

/-! ## Runs -/

/-- Every name is alike the entry it has. -/
def Settled (M : Mapping) : Prop :=
  ∀ name, Alike M (bare name)

/-- A call that keeps the map in order : its key is alike the one that is there, and what it is for
is settled and well read. -/
structure Call.Allowed (M : Mapping) (c : Call) : Prop where
  alike : c.Alike M
  settled : Settled (c.apply M)
  wellRead : WellRead (c.apply M)

/-- All calls of a run are allowed, each for what is mapped before it. -/
def AllAllowed (M : Mapping) : List Call → Prop
  | [] => True
  | c :: calls => c.Allowed M ∧ AllAllowed (c.apply M) calls

/-- The keys of all calls of a run are alike the ones that are there. -/
def AllAlike (M : Mapping) : List Call → Prop
  | [] => True
  | c :: calls => c.Alike M ∧ AllAlike (c.apply M) calls

/-- A contact with a name, and less addresses than `m_emailIndex` can count. -/
def Dumped (con : Contact) : Prop :=
  (con.firstName ≠ [] ∨ con.lastName ≠ []) ∧ (written con).length < 2 ^ 32

/-- The map finds the names that are mapped, has an entry for each of them, and is written with
every attribute in its place. -/
structure Consistent (t : AccessMap) (M : Mapping) : Prop where
  lookup : ∀ name, t.find? less (bare name) = M name
  nodup : (t.toList.map fun e => e.1.name).Nodup
  mem_iff : ∀ e, e ∈ t.toList ↔ M e.1.name = some e
  ordered : t.toList.Pairwise fun a b => Before a.1 b.1
  dumps : ∀ baseDN con, Dumped con → Dumps t baseDN con (.ok (dumpHeader con ++
    (t.toList.map toAttribute).flatMap (fun a => ((listed t baseDN).values con a).flatMap
      (ContactLdif.dumpValue a)) ++ ascii "objectClass: inetOrgPerson\n" ++ [10]))

section Runs

variable {t : AccessMap} {M : Mapping}

theorem consistent_of_represents (h : Represents t.toList M) (hs : Settled M) (hM : WellRead M) :
    Consistent t M where
  lookup name := h.find?_eq (hs name)
  nodup := by
    refine List.pairwise_map.mpr (h.ordered.imp_of_mem fun {a b} ha hb hab hname => ?_)
    exact not_before_self _ (h.eq_of_name_eq ha hb hname ▸ hab)
  mem_iff := h.mem_iff
  ordered := h.ordered
  dumps baseDN con hcon := by
    have hdumps := @dumps_listed t M baseDN con h (hs _) hM hcon.2
    have hnames : ¬(con.firstName = [] ∧ con.lastName = []) := fun hnil =>
      hcon.1.elim (· hnil.1) (· hnil.2)
    rw [ContactLdif.dumpLdif, if_neg hnames] at hdumps
    exact hdumps

theorem AllAllowed.allAlike {calls : List Call} (h : AllAllowed M calls) : AllAlike M calls := by
  induction calls generalizing M with
  | nil => trivial
  | cons c calls ih => exact ⟨h.1.alike, ih h.2⟩

theorem represented_runs {calls : List Call} (h : Represents t.toList M)
    (hcalls : AllAlike M calls) : Represented (Runs t calls) (applyAll M calls) := by
  induction calls generalizing t M with
  | nil => exact ⟨⟨t, rfl⟩, fun t' ht' => ht' ▸ h⟩
  | cons c calls ih =>
    obtain ⟨⟨next, hnext⟩, hstep⟩ := Call.Step.represents h hcalls.1
    refine ⟨?_, fun t' ht' => ?_⟩
    · obtain ⟨t', ht'⟩ := (ih (hstep next hnext) hcalls.2).1
      exact ⟨t', next, hnext, ht'⟩
    · obtain ⟨next, hnext, ht'⟩ := ht'
      exact (ih (hstep next hnext) hcalls.2).2 t' ht'

theorem AllAllowed.last {calls : List Call} (h : AllAllowed M calls) (hs : Settled M)
    (hM : WellRead M) : Settled (applyAll M calls) ∧ WellRead (applyAll M calls) := by
  induction calls generalizing M with
  | nil => exact ⟨hs, hM⟩
  | cons c calls ih => exact ih h.2 h.1.settled h.1.wellRead

theorem AllAlike.append {calls calls' : List Call} (h : AllAlike M calls)
    (h' : AllAlike (applyAll M calls) calls') : AllAlike M (calls ++ calls') := by
  induction calls generalizing M with
  | nil => exact h'
  | cons c calls ih => exact ⟨h.1, ih h.2 h'⟩

end Runs

/-! ## The constructor -/

/-- An entry as the constructor makes them. -/
def Initial (e : LdifEntry) : Prop :=
  e.1.order = 0 ∧ (e.2.read = .email → e.1.name = ascii "mail") ∧
    (e.1.name = dnAttr.name → e.2.read ≠ .fqdn ∧ e.2.read ≠ .email)
  deriving Decidable

/-- A call as the constructor makes them. -/
def Call.Initial : Call → Prop
  | .map ldifname pair => LdifMap.Initial (ldifname, pair)
  | .setObjectClass name _ => name.order = 0
  | _ => False

instance : DecidablePred Call.Initial
  | .map ldifname pair => inferInstanceAs (Decidable (LdifMap.Initial (ldifname, pair)))
  | .setObjectClass name _ => inferInstanceAs (Decidable (name.order = 0))
  | .mapFields _ _ _ | .unmap _ | .setObjectOrder _ _ => inferInstanceAs (Decidable False)

/-- All entries are as the constructor makes them. -/
def AllInitial (M : Mapping) : Prop :=
  ∀ name e, M name = some e → e.1.name = name ∧ Initial e

theorem before_congr {a a' b b' : LdifKey} (ha : a.name = a'.name ∧ a.order = a'.order)
    (hb : b.name = b'.name ∧ b.order = b'.order) : Before a b ↔ Before a' b' := by
  unfold Before
  rw [ha.1, ha.2, hb.1, hb.2]

namespace AllInitial

variable {M : Mapping} {k : LdifKey} {pair : AccessPair}

theorem alike (h : AllInitial M) (hk : k.order = 0) : Alike M k := by
  intro e he name x _ _
  obtain ⟨hname, horder, -⟩ := h _ e he
  exact before_congr ⟨rfl, rfl⟩ ⟨hname.symm, hk.trans horder.symm⟩

theorem settled (h : AllInitial M) : Settled M := fun _ => h.alike rfl

theorem wellRead (h : AllInitial M) : WellRead M where
  fqdn e he := ((h _ e he).2.2.2 (h _ e he).1).1
  email name name' e e' he he' hread hread' := by
    rw [← (h _ e he).1, ← (h _ e' he').1, (h _ e he).2.2.1 hread, (h _ e' he').2.2.1 hread']
  email_fqdn e he hread := absurd hread ((h _ e he).2.2.2 (h _ e he).1).2

theorem update (h : AllInitial M) {name : Bytes} {o : Option LdifEntry}
    (ho : ∀ e, o = some e → e.1.name = name ∧ Initial e) :
    AllInitial (Function.update M name o) := by
  intro name' e he
  by_cases hname : name' = name
  · rw [hname, Function.update_self] at he
    exact hname ▸ ho e he
  · rw [Function.update_of_ne hname] at he
    exact h name' e he

theorem assign (h : AllInitial M) (hk : Initial (k, pair)) : AllInitial (M.assign k pair) := by
  refine h.update fun e he => ?_
  obtain rfl := Option.some.inj he
  cases hM : M k.name with
  | none => exact ⟨rfl, hk⟩
  | some e =>
    obtain ⟨hname, horder, -⟩ := h _ e hM
    exact ⟨hname, horder, fun hread => hname.trans (hk.2.1 hread), fun hdn => hk.2.2 (hname ▸ hdn)⟩

theorem apply (h : AllInitial M) {c : Call} (hc : c.Initial) : AllInitial (c.apply M) := by
  cases c with
  | map ldifname pair => exact h.assign hc
  | setObjectClass name objectClass =>
    refine h.update fun e he => ?_
    obtain ⟨x, hx, rfl⟩ := Option.map_eq_some_iff.mp he
    exact h _ x hx
  | mapFields | unmap | setObjectOrder => exact hc.elim

theorem allowed (h : AllInitial M) {c : Call} (hc : c.Initial) : c.Allowed M where
  alike := by
    cases c with
    | map ldifname pair => exact h.alike hc.1
    | setObjectClass name objectClass => exact h.alike hc
    | mapFields | unmap | setObjectOrder => exact hc.elim
  settled := (h.apply hc).settled
  wellRead := (h.apply hc).wellRead

theorem allAllowed {calls : List Call} (h : AllInitial M) (hcalls : ∀ c ∈ calls, c.Initial) :
    AllAllowed M calls ∧ AllInitial (applyAll M calls) := by
  induction calls generalizing M with
  | nil => exact ⟨trivial, h⟩
  | cons c calls ih =>
    have hc := hcalls c List.mem_cons_self
    have hrest := ih (h.apply hc) fun c' hc' => hcalls c' (List.mem_cons_of_mem c hc')
    exact ⟨⟨h.allowed hc, hrest.1⟩, hrest.2⟩

end AllInitial

theorem initial_of_mem_constructorCalls : ∀ c ∈ constructorCalls, c.Initial := by
  decide

/-- What is mapped after the constructor. -/
def constructed : Mapping :=
  applyAll (fun _ => none) constructorCalls

theorem allAllowed_constructorCalls :
    AllAllowed (fun _ => none) constructorCalls ∧ AllInitial constructed :=
  AllInitial.allAllowed (fun _ _ he => by cases he) initial_of_mem_constructorCalls

/-- A name that is mapped was mapped before or is that of the call. -/
theorem eq_of_apply_ne_none {M : Mapping} {c : Call} {name : Bytes} (h : c.apply M name ≠ none) :
    M name ≠ none ∨ name = c.key.name := by
  by_cases hname : name = c.key.name
  · exact Or.inr hname
  · refine Or.inl fun hM => h ?_
    cases c with
    | mapFields ldifname readField writeField =>
      simp only [Call.apply]
      cases fieldPair readField writeField with
      | none => exact hM
      | some pair => exact (Function.update_of_ne hname _ _).trans hM
    | map | unmap | setObjectClass | setObjectOrder =>
      exact (Function.update_of_ne hname _ _).trans hM

theorem mem_of_applyAll_ne_none {M : Mapping} {calls : List Call} {name : Bytes}
    (h : applyAll M calls name ≠ none) : M name ≠ none ∨ name ∈ calls.map (·.key.name) := by
  induction calls generalizing M with
  | nil => exact Or.inl h
  | cons c calls ih =>
    rcases ih h with h | h
    · refine (eq_of_apply_ne_none h).imp_right fun hname => ?_
      rw [hname]
      exact List.mem_cons_self
    · exact Or.inr (List.mem_cons_of_mem _ h)

/-- The names the constructor maps. -/
def constructedNames : List Bytes :=
  constructorCalls.map (·.key.name)

theorem mem_constructedNames {name : Bytes} {e : LdifEntry} (h : constructed name = some e) :
    name ∈ constructedNames :=
  (@mem_of_applyAll_ne_none (fun _ => none) constructorCalls name (by
    rw [show applyAll (fun _ => none) constructorCalls name = some e from h]
    exact Option.some_ne_none e)).resolve_left (not_not_intro rfl)

/-- A change of a key does not change what is read. -/
theorem WellRead.rekey {M : Mapping} {name : Bytes} {change : LdifKey → LdifKey} (h : WellRead M) :
    WellRead (M.rekey name change) := by
  have hread : ∀ n e, M.rekey name change n = some e → ∃ e', M n = some e' ∧ e'.2 = e.2 :=
    fun n e he => by
      by_cases hn : n = name
      · rw [hn, Mapping.rekey, Function.update_self] at he
        obtain ⟨e', he', rfl⟩ := Option.map_eq_some_iff.mp he
        exact ⟨e', hn ▸ he', rfl⟩
      · rw [Mapping.rekey, Function.update_of_ne hn] at he
        exact ⟨e, he, rfl⟩
  constructor
  · intro e he
    obtain ⟨x, hx, heq⟩ := hread _ e he
    exact heq ▸ h.fqdn x hx
  · intro n n' e e' he he' hemail hemail'
    obtain ⟨x, hx, heq⟩ := hread n e he
    obtain ⟨x', hx', heq'⟩ := hread n' e' he'
    exact h.email n n' x x' hx hx' (heq ▸ hemail) (heq' ▸ hemail')
  · intro e he hemail n e' he'
    obtain ⟨x, hx, heq⟩ := hread _ e he
    obtain ⟨x', hx', heq'⟩ := hread n e' he'
    exact heq' ▸ h.email_fqdn x hx (heq ▸ hemail) n x' hx'

/-- Every other name of the constructor comes before `title`. -/
theorem settled_title :
    Settled ((Call.setObjectOrder (bare (ascii "title")) 1).apply constructed) := by
  have hlast : ∀ name ∈ constructedNames, name ≠ ascii "title" →
      Before (bare name) (bare (ascii "title")) ∧ Before (bare name) ⟨ascii "title", [], 1⟩ := by
    decide
  have hinitial := allAllowed_constructorCalls.2
  have hother : ∀ name e, name ≠ ascii "title" →
      (Call.setObjectOrder (bare (ascii "title")) 1).apply constructed name = some e →
        constructed name = some e := fun name e hname he =>
    (Function.update_of_ne hname _ _).symm.trans he
  intro name e he name' x hx hne
  by_cases hname : name = ascii "title"
  · subst hname
    have hx' := hother name' x hne hx
    obtain ⟨hxname, hxorder, -⟩ := hinitial name' x hx'
    have hbefore := hlast name' (mem_constructedNames hx') hne
    have hxkey : x.1.name = (bare name').name ∧ x.1.order = (bare name').order := ⟨hxname, hxorder⟩
    have hekey : e.1.name = ascii "title" ∧ e.1.order = 1 := by
      revert e
      decide
    exact iff_of_true ((before_congr hxkey ⟨rfl, rfl⟩).mpr hbefore.1)
      ((before_congr hxkey hekey).mpr hbefore.2)
  · obtain ⟨hename, heorder, -⟩ := hinitial name e (hother name e hname he)
    exact before_congr ⟨rfl, rfl⟩ ⟨hename.symm, heorder.symm⟩

/-! ## Every run -/

/-- Calls on a new object, with keys that are alike those that are there. -/
theorem represented_constructed {calls : List Call} (h : AllAlike constructed calls) :
    Represented (Runs .leaf (constructorCalls ++ calls)) (applyAll constructed calls) := by
  have hrun := represented_runs (t := .leaf) Represents.nil
    (allAllowed_constructorCalls.1.allAlike.append h)
  rwa [applyAll, List.foldl_append] at hrun

/-- A run of calls on a new object, all of them allowed, can be made, and whatever it leaves
behind is consistent with what it is for. -/
theorem consistent_of_runs {calls : List Call} (h : AllAllowed constructed calls) :
    (∃ t, Runs .leaf (constructorCalls ++ calls) t) ∧
    ∀ t, Runs .leaf (constructorCalls ++ calls) t → Consistent t (applyAll constructed calls) := by
  have hinitial := allAllowed_constructorCalls.2
  obtain ⟨hexists, hrep⟩ := represented_constructed h.allAlike
  obtain ⟨hsettled, hread⟩ := h.last hinitial.settled hinitial.wellRead
  exact ⟨hexists, fun t ht => consistent_of_represents (hrep t ht) hsettled hread⟩

/-- The entry of an attribute of order 0. -/
def ofAttribute (a : LdifAttribute) : LdifEntry :=
  (⟨a.name, a.objectClass, 0⟩, ⟨a.read, a.write⟩)

theorem represents_defaultMap :
    Represents (ContactLdif.defaultMap.map ofAttribute) constructed := by
  refine ⟨by decide, fun e => ⟨?_, fun he => ?_⟩,
    fun name e he => (allAllowed_constructorCalls.2 name e he).1⟩
  · revert e
    decide
  · have hall : ∀ name ∈ constructedNames, ∀ e ∈ constructed name,
        e ∈ ContactLdif.defaultMap.map ofAttribute := by decide
    exact hall _ (mem_constructedNames he) e he

/-- The map of the constructor is the one that contacts are read with. -/
theorem listed_of_constructor {t : AccessMap} (ht : Runs .leaf constructorCalls t)
    (baseDN : Bytes) : listed t baseDN = ContactLdif.new baseDN := by
  have hrep := (represented_runs (t := .leaf) Represents.nil
    allAllowed_constructorCalls.1.allAlike).2 t ht
  have hlist : t.toList = ContactLdif.defaultMap.map ofAttribute :=
    hrep.unique represents_defaultMap
  rw [listed, hlist, List.map_map]
  exact congrArg (ContactLdif.mk · baseDN (ascii "cn")) (List.map_id _)

/-- The key of `title`, the last name, gets an order. -/
theorem consistent_of_runs_title :
    ∃ t, Runs .leaf (constructorCalls ++ [.setObjectOrder (bare (ascii "title")) 1]) t ∧
      t.find? less (bare (ascii "title")) =
        some (⟨ascii "title", [], 1⟩, ⟨.jobTitle, .jobTitle⟩) := by
  have hinitial := allAllowed_constructorCalls.2
  have hrun := @consistent_of_runs [.setObjectOrder (bare (ascii "title")) 1]
    ⟨⟨hinitial.alike rfl, settled_title, @WellRead.rekey _ _ (fun key => { key with order := 1 })
      hinitial.wellRead⟩, trivial⟩
  obtain ⟨t, ht⟩ := hrun.1
  exact ⟨t, ht, ((hrun.2 t ht).lookup (ascii "title")).trans (by decide)⟩

/-- With the order 1, `mail` is mapped but not found : `mobile` comes before it. -/
theorem find?_eq_none_of_setObjectOrder :
    (∃ t, Runs .leaf (constructorCalls ++ [.setObjectOrder (bare (ascii "mail")) 1]) t) ∧
    ∀ t, Runs .leaf (constructorCalls ++ [.setObjectOrder (bare (ascii "mail")) 1]) t →
      t.find? less (bare (ascii "mail")) = none ∧
      applyAll constructed [.setObjectOrder (bare (ascii "mail")) 1] (ascii "mail") =
        some (⟨ascii "mail", [], 1⟩, ⟨.email, .email⟩) := by
  have halike : AllAlike constructed [.setObjectOrder (bare (ascii "mail")) 1] :=
    ⟨allAllowed_constructorCalls.2.alike rfl, trivial⟩
  obtain ⟨hexists, hrep⟩ := represented_constructed halike
  refine ⟨hexists, fun t ht => ?_⟩
  have hmail : applyAll constructed [.setObjectOrder (bare (ascii "mail")) 1] (ascii "mail") =
      some (⟨ascii "mail", [], 1⟩, ⟨.email, .email⟩) := by decide
  have hmobile : applyAll constructed [.setObjectOrder (bare (ascii "mail")) 1] (ascii "mobile") =
      some (bare (ascii "mobile"), ⟨.mobilePhone, .mobilePhone⟩) := by decide
  exact ⟨(hrep t ht).find?_eq_none hmail ((hrep t ht).mem_of_name hmobile) (by decide) (by decide)
    (by decide), hmail⟩

end Barry.LdifMap
