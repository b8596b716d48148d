import Mathlib.Data.List.Induction
import Mathlib.Data.List.Nodup

/-!
# Pairs of endpoints

`EndpointPairings` (`usbwrap.cc`) goes over the endpoints of an interface in discovery order
and carries a pair of which one side is filled. A change of type empties the other side; a
pair with both sides and a type is added, and the next one starts empty.

`Carried` is what a pair in the making has to do with the endpoints since the last pair was
added, `Scan.Paired` what holds of the whole scan. From them every pair is a read and a
write endpoint of one type with nothing of another type between them (`Matched`).
-/

namespace Barry

/-- `EndpointDescriptor::EpType`. -/
inductive EpType where
  | control
  | isochronous
  | bulk
  | interrupt
  | invalid
  deriving DecidableEq, Repr

/-- What the pairing reads of an `EndpointDescriptor`, whose address is without the bit of the
direction. -/
structure EndpointDescriptor where
  isRead : Bool
  address : UInt8
  type : EpType
  deriving DecidableEq, Repr

structure EndpointPair where
  read : UInt8 := 0
  write : UInt8 := 0
  type : EpType := .invalid
  deriving DecidableEq, Repr

namespace EndpointPair

def isTypeSet (pair : EndpointPair) : Bool :=
  pair.type ≠ .invalid

def isComplete (pair : EndpointPair) : Bool :=
  pair.read ≠ 0 && pair.write ≠ 0 && pair.isTypeSet

/-- Another type is set, so that the pair starts over. -/
def startsOver (pair : EndpointPair) (desc : EndpointDescriptor) : Bool :=
  pair.isTypeSet && pair.type ≠ desc.type

/-- The body of the loop over the endpoints, up to the type. -/
def take (pair : EndpointPair) (desc : EndpointDescriptor) : EndpointPair :=
  if desc.isRead then
    { read := desc.address
      write := if pair.startsOver desc then 0 else pair.write
      type := desc.type }
  else
    { read := if pair.startsOver desc then 0 else pair.read
      write := desc.address
      type := desc.type }

/-- The address on the read side, or on the write side. -/
def side (pair : EndpointPair) : Bool → UInt8
  | true => pair.read
  | false => pair.write

/-- Both sides of a pair. -/
def addresses (pair : EndpointPair) : List UInt8 :=
  [pair.read, pair.write]

variable {pair : EndpointPair} {desc : EndpointDescriptor}

@[simp]
theorem take_type : (pair.take desc).type = desc.type := by
  unfold take
  split <;> rfl

@[simp]
theorem side_take_self : (pair.take desc).side desc.isRead = desc.address := by
  cases h : desc.isRead <;> simp [take, side, h]

theorem side_take_of_ne {d : Bool} (hd : d ≠ desc.isRead) :
    (pair.take desc).side d = if pair.startsOver desc then 0 else pair.side d := by
  cases h : desc.isRead <;> cases d <;> simp_all [take, side]

theorem side_ne_zero_of_isComplete (h : pair.isComplete) (d : Bool) : pair.side d ≠ 0 := by
  simp only [isComplete, Bool.and_eq_true, decide_eq_true_eq] at h
  cases d with
  | true => exact h.1.1
  | false => exact h.1.2

theorem mem_addresses {a : UInt8} : a ∈ pair.addresses ↔ ∃ d, pair.side d = a := by
  simp [addresses, side, eq_comm, or_comm]

end EndpointPair

/-! ## The scan -/

/-- `EndpointPairings` in its loop : the pairs so far and the one in the making. -/
structure Scan where
  pairs : List EndpointPair := []
  pair : EndpointPair := {}
  deriving DecidableEq, Repr

/-- One turn of the loop. -/
def Scan.step (s : Scan) (desc : EndpointDescriptor) : Scan :=
  if (s.pair.take desc).isComplete then ⟨s.pairs ++ [s.pair.take desc], {}⟩
  else ⟨s.pairs, s.pair.take desc⟩

structure EndpointPairings where
  pairs : List EndpointPair := []
  /-- `m_valid`. -/
  valid : Bool := false
  deriving DecidableEq, Repr

/-- The constructor of `EndpointPairings`. -/
def endpointPairings (eps : List EndpointDescriptor) : EndpointPairings :=
  if eps.length = 0 then {} else ⟨(eps.foldl Scan.step {}).pairs, true⟩

theorem pairs_endpointPairings (eps : List EndpointDescriptor) :
    (endpointPairings eps).pairs = (eps.foldl Scan.step {}).pairs := by
  cases eps <;> rfl

/-! ## A pair in the making -/

/-- Each side of the pair that is filled is an endpoint of the group, and from there on all
are of the type of the pair. -/
def Carried (group : List EndpointDescriptor) (pair : EndpointPair) : Prop :=
  ∀ d, pair.side d ≠ 0 → pair.isTypeSet ∧ ∃ before e after, group = before ++ e :: after ∧
    e.isRead = d ∧ e.address = pair.side d ∧ ∀ x ∈ e :: after, x.type = pair.type

/-- A read and a write endpoint of the list, in either order, of the type of the pair as is
every endpoint between them. -/
def Matched (eps : List EndpointDescriptor) (pair : EndpointPair) : Prop :=
  ∃ before first between second after,
    eps = before ++ first :: (between ++ second :: after) ∧
    second.isRead = !first.isRead ∧
    (∀ e ∈ first :: (between ++ [second]), e.type = pair.type) ∧
    ∀ e ∈ [first, second], pair.side e.isRead = e.address

theorem carried_empty (group : List EndpointDescriptor) : Carried group {} := by
  intro d hd
  cases d <;> exact absurd rfl hd

theorem Matched.append {eps : List EndpointDescriptor} {pair : EndpointPair}
    (h : Matched eps pair) (pre post : List EndpointDescriptor) :
    Matched (pre ++ eps ++ post) pair := by
  obtain ⟨before, first, between, second, after, rfl, hdir, htype, hside⟩ := h
  exact ⟨pre ++ before, first, between, second, after ++ post, by simp, hdir, htype, hside⟩

section Step

variable {group : List EndpointDescriptor} {pair : EndpointPair} {desc : EndpointDescriptor}

theorem Carried.take (h : Carried group pair) (hdesc : desc.type ≠ .invalid) :
    Carried (group ++ [desc]) (pair.take desc) := by
  intro d hd
  refine ⟨by simpa [EndpointPair.isTypeSet] using hdesc, ?_⟩
  by_cases hdir : d = desc.isRead
  · subst hdir
    exact ⟨group, desc, [], rfl, rfl, by simp, by simp⟩
  · rw [EndpointPair.side_take_of_ne hdir] at hd ⊢
    -- a side that is kept was filled by an endpoint of the same type
    by_cases hover : pair.startsOver desc
    · exact absurd (if_pos hover) hd
    rw [if_neg hover] at hd ⊢
    obtain ⟨hset, before, e, after, rfl, he, haddr, htype⟩ := h d hd
    have hsame : pair.type = desc.type := by simpa [EndpointPair.startsOver, hset] using hover
    refine ⟨before, e, after ++ [desc], by simp, he, haddr, fun x hx => ?_⟩
    rw [← List.cons_append, List.mem_append, List.mem_singleton] at hx
    rcases hx with hx | rfl
    · simpa [← hsame] using htype x hx
    · simp

theorem Carried.matched (h : Carried group pair) (hdesc : desc.type ≠ .invalid)
    (hc : (pair.take desc).isComplete) : Matched (group ++ [desc]) (pair.take desc) := by
  have hd := EndpointPair.side_ne_zero_of_isComplete hc (!desc.isRead)
  obtain ⟨-, before, e, after, hsplit, he, haddr, htype⟩ := h.take hdesc _ hd
  -- the other side is not the endpoint just taken
  rcases List.eq_nil_or_concat after with rfl | ⟨between, last, rfl⟩
  · have : desc = e := (List.append_inj' hsplit rfl).2 |> List.singleton_inj.mp
    simp [this] at he
  · rw [List.concat_eq_append, ← List.cons_append, ← List.append_assoc] at hsplit
    obtain rfl : desc = last := List.singleton_inj.mp (List.append_inj' hsplit rfl).2
    refine ⟨before, e, between, desc, [], by rw [hsplit]; simp, by simp [he],
      by simpa using htype, fun x hx => ?_⟩
    rcases List.mem_pair.mp hx with rfl | rfl
    · rw [he, haddr]
    · simp

end Step

/-! ## The whole scan -/

/-- The pairs of the endpoints so far, made of the first of them (`done`), and the pair that
is carried on from there. -/
structure Scan.Paired (s : Scan) (eps : List EndpointDescriptor) : Prop where
  matched : ∀ p ∈ s.pairs, Matched eps p
  nodup : (s.pairs.flatMap EndpointPair.addresses).Nodup
  carried : ∃ done group, eps = done ++ group ∧ Carried group s.pair ∧
    ∀ a ∈ s.pairs.flatMap EndpointPair.addresses, a ∈ done.map EndpointDescriptor.address

section Matched

variable {eps : List EndpointDescriptor} {p : EndpointPair}

theorem Matched.exists_of_side (h : Matched eps p) (d : Bool) :
    ∃ e ∈ eps, e.isRead = d ∧ e.address = p.side d := by
  obtain ⟨before, first, between, second, after, rfl, hdir, -, hside⟩ := h
  by_cases hd : first.isRead = d
  · exact ⟨first, by simp, hd, by rw [← hd, hside first (by simp)]⟩
  · have hs : second.isRead = d := by rw [hdir, ← Bool.eq_not_of_ne (Ne.symm hd)]
    exact ⟨second, by simp, hs, by rw [← hs, hside second (by simp)]⟩

theorem Matched.mem_map_address (h : Matched eps p) {a : UInt8} (ha : a ∈ p.addresses) :
    a ∈ eps.map EndpointDescriptor.address := by
  obtain ⟨d, rfl⟩ := EndpointPair.mem_addresses.mp ha
  obtain ⟨e, he, -, haddr⟩ := h.exists_of_side d
  exact haddr ▸ List.mem_map_of_mem he

theorem Matched.nodup_addresses (h : Matched eps p)
    (hd : (eps.map EndpointDescriptor.address).Nodup) : p.addresses.Nodup := by
  obtain ⟨r, hr, hrdir, hraddr⟩ := h.exists_of_side true
  obtain ⟨w, hw, hwdir, hwaddr⟩ := h.exists_of_side false
  have hne : p.read ≠ p.write := fun he => by
    have : r = w := List.inj_on_of_nodup_map hd hr hw (hraddr.trans (he.trans hwaddr.symm))
    simp [this, hwdir] at hrdir
  simpa [EndpointPair.addresses] using hne

end Matched

namespace Scan

variable {s : Scan} {eps : List EndpointDescriptor} {desc : EndpointDescriptor}

theorem paired_empty : ({} : Scan).Paired [] :=
  ⟨by simp, by simp, [], [], rfl, carried_empty [], by simp⟩

theorem step_of_isComplete (h : (s.pair.take desc).isComplete) :
    s.step desc = ⟨s.pairs ++ [s.pair.take desc], {}⟩ :=
  if_pos h

theorem step_of_not_isComplete (h : ¬ (s.pair.take desc).isComplete) :
    s.step desc = ⟨s.pairs, s.pair.take desc⟩ :=
  if_neg h

theorem Paired.step (h : s.Paired eps) (hdesc : desc.type ≠ .invalid)
    (hd : ((eps ++ [desc]).map EndpointDescriptor.address).Nodup) :
    (s.step desc).Paired (eps ++ [desc]) := by
  obtain ⟨done, group, rfl, hcarried, hused⟩ := h.carried
  have hmatched : ∀ p ∈ s.pairs, Matched (done ++ group ++ [desc]) p := fun p hp => by
    simpa using (h.matched p hp).append [] [desc]
  by_cases hc : (s.pair.take desc).isComplete
  · rw [step_of_isComplete hc]
    have hnew := hcarried.matched hdesc hc
    rw [List.append_assoc, List.map_append, List.nodup_append] at hd
    refine ⟨fun p hp => ?_, ?_, done ++ group ++ [desc], [], by simp, carried_empty [], ?_⟩
    · rcases List.mem_append.mp hp with hp | hp
      · exact hmatched p hp
      · simpa [List.mem_singleton.mp hp] using hnew.append done []
    · rw [List.flatMap_append, List.flatMap_singleton, List.nodup_append]
      exact ⟨h.nodup, hnew.nodup_addresses hd.2.1,
        fun a ha b hb => hd.2.2 a (hused a ha) b (hnew.mem_map_address hb)⟩
    · intro a ha
      rw [List.flatMap_append, List.flatMap_singleton, List.mem_append] at ha
      rw [List.append_assoc, List.map_append, List.mem_append]
      exact ha.imp (hused a) hnew.mem_map_address
  · rw [step_of_not_isComplete hc]
    exact ⟨hmatched, h.nodup, done, group ++ [desc], by simp, hcarried.take hdesc, hused⟩

/-- Over the whole list, with pairwise distinct addresses and valid types. -/
theorem paired_foldl (eps : List EndpointDescriptor) :
    (eps.map EndpointDescriptor.address).Nodup → (∀ e ∈ eps, e.type ≠ .invalid) →
      (eps.foldl Scan.step {}).Paired eps := by
  induction eps using List.reverseRecOn with
  | nil => exact fun _ _ => paired_empty
  | append_singleton eps desc ih =>
    intro hd ht
    rw [List.foldl_append]
    have hd' : (eps.map EndpointDescriptor.address).Nodup := by
      rw [List.map_append] at hd
      exact hd.of_append_left
    exact (ih hd' fun e he => ht e (by simp [he])).step (ht desc (by simp)) hd

/-- The pairs that are there already stay in front. -/
theorem foldl_pairs_append (eps : List EndpointDescriptor) (ps qs : List EndpointPair)
    (pair : EndpointPair) :
    (eps.foldl Scan.step ⟨ps ++ qs, pair⟩).pairs =
      ps ++ (eps.foldl Scan.step ⟨qs, pair⟩).pairs := by
  induction eps generalizing qs pair with
  | nil => rfl
  | cons desc eps ih =>
    by_cases hc : (pair.take desc).isComplete
    · simp only [List.foldl_cons, step_of_isComplete (s := ⟨_, pair⟩) hc, List.append_assoc, ih]
    · simp only [List.foldl_cons, step_of_not_isComplete (s := ⟨_, pair⟩) hc, ih]

end Scan

/-! ## Pairs of a list of endpoints -/

/-- A pair can start behind these endpoints : there are none, or the last completes a pair. -/
def AtPairStart (eps : List EndpointDescriptor) : Prop :=
  eps = [] ∨ ∃ init last, eps = init ++ [last] ∧
    (endpointPairings init).pairs.length < (endpointPairings eps).pairs.length

theorem AtPairStart.pair_eq {eps : List EndpointDescriptor} (h : AtPairStart eps) :
    (eps.foldl Scan.step {}).pair = {} := by
  rcases h with rfl | ⟨init, last, rfl, hlt⟩
  · rfl
  · simp only [pairs_endpointPairings, List.foldl_append, List.foldl_cons, List.foldl_nil] at hlt ⊢
    by_cases hc : ((init.foldl Scan.step {}).pair.take last).isComplete
    · rw [Scan.step_of_isComplete hc]
    · rw [Scan.step_of_not_isComplete hc] at hlt
      exact absurd hlt (Nat.lt_irrefl _)

/-- The pair of two endpoints of opposite direction. -/
def pairOf (a b : EndpointDescriptor) : EndpointPair :=
  (({} : EndpointPair).take a).take b

theorem isComplete_pairOf {a b : EndpointDescriptor} (ha : a.address ≠ 0) (hb : b.address ≠ 0)
    (ht : a.type = b.type) (hv : b.type ≠ .invalid) (hdir : b.isRead = !a.isRead) :
    (pairOf a b).isComplete := by
  cases hr : a.isRead <;>
    simp [pairOf, EndpointPair.take, EndpointPair.isComplete, EndpointPair.isTypeSet,
      EndpointPair.startsOver, hdir, hr, ha, hb, ht, hv]

theorem matched_pairOf {a b : EndpointDescriptor} (ht : a.type = b.type)
    (hv : b.type ≠ .invalid) (hc : (pairOf a b).isComplete) : Matched [a, b] (pairOf a b) :=
  ((carried_empty []).take (ht ▸ hv)).matched hv hc

theorem not_isComplete_take_empty (a : EndpointDescriptor) :
    ¬ (({} : EndpointPair).take a).isComplete := by
  cases hr : a.isRead <;> simp [EndpointPair.take, EndpointPair.isComplete, hr]

/-- Two endpoints that make a pair where one can start. -/
theorem pairs_of_atPairStart {pre post : List EndpointDescriptor} {a b : EndpointDescriptor}
    (hpre : AtPairStart pre) (hc : (pairOf a b).isComplete) :
    (endpointPairings (pre ++ a :: b :: post)).pairs =
      (endpointPairings pre).pairs ++ pairOf a b :: (endpointPairings post).pairs := by
  have hpair := hpre.pair_eq
  simp only [pairs_endpointPairings, List.foldl_append, List.foldl_cons]
  generalize pre.foldl Scan.step {} = s at *
  obtain ⟨ps, pair⟩ := s
  obtain rfl : pair = {} := hpair
  have hfirst : Scan.step ⟨ps, {}⟩ a = ⟨ps, ({} : EndpointPair).take a⟩ :=
    Scan.step_of_not_isComplete (not_isComplete_take_empty a)
  have hsecond : Scan.step ⟨ps, ({} : EndpointPair).take a⟩ b = ⟨ps ++ [pairOf a b], {}⟩ :=
    Scan.step_of_isComplete hc
  rw [hfirst, hsecond, ← List.append_nil (ps ++ _), Scan.foldl_pairs_append, List.append_assoc]
  rfl

/-- What the pairs are, for endpoints with pairwise distinct addresses other than 0 and valid
types. -/
theorem endpointPairings_sound {eps : List EndpointDescriptor}
    (hdistinct : (eps.map EndpointDescriptor.address).Nodup)
    (hzero : ∀ e ∈ eps, e.address ≠ 0) (htype : ∀ e ∈ eps, e.type ≠ .invalid) :
    (∀ p ∈ (endpointPairings eps).pairs, Matched eps p) ∧
    ((endpointPairings eps).pairs.flatMap EndpointPair.addresses).Nodup ∧
    ∀ pre a b post, eps = pre ++ a :: b :: post → AtPairStart pre → a.type = b.type →
      b.isRead = !a.isRead → Matched [a, b] (pairOf a b) ∧
        (endpointPairings eps).pairs =
          (endpointPairings pre).pairs ++ pairOf a b :: (endpointPairings post).pairs := by
  have hpaired := Scan.paired_foldl eps hdistinct htype
  refine ⟨fun p hp => hpaired.matched p ?_, ?_, ?_⟩
  · rwa [← pairs_endpointPairings]
  · rw [pairs_endpointPairings]
    exact hpaired.nodup
  · rintro pre a b post rfl hpre ht hdir
    have ha := hzero a (by simp)
    have hb := hzero b (by simp)
    have hv := htype b (by simp)
    have hc := isComplete_pairOf ha hb ht hv hdir
    exact ⟨matched_pairOf ht hv hc, pairs_of_atPairStart hpre hc⟩

/-- Two pairs with an interrupt endpoint between them. The addresses are without the bit of the
direction. -/
theorem endpointPairings_sound_device :
    (endpointPairings [⟨true, 1, .bulk⟩, ⟨false, 2, .bulk⟩, ⟨true, 3, .interrupt⟩,
      ⟨true, 4, .bulk⟩, ⟨false, 5, .bulk⟩]).pairs = [⟨1, 2, .bulk⟩, ⟨4, 5, .bulk⟩] ∧
    Matched [⟨true, 1, .bulk⟩, ⟨false, 2, .bulk⟩, ⟨true, 3, .interrupt⟩, ⟨true, 4, .bulk⟩,
      ⟨false, 5, .bulk⟩] ⟨4, 5, .bulk⟩ :=
  ⟨by decide, (endpointPairings_sound (by decide) (by decide) (by decide)).1 _ (by decide)⟩

end Barry
