import LightRocm.Memory.Allocation

/-!
# The books on pins

The count of every entry is the number of pins on it. The lemmas follow the
registries through the operations of the calls; they see a registry only through
the entry of an address.
-/

namespace LightRocm.Memory

variable {s s' : State} {kind : Kind} {base : ℕ} {f : Pin → ℕ} {g : Allocation → Allocation}

/-- The entry of an address after a change. -/
theorem State.find_update (s : State) (kind : Kind) (base : ℕ) (hg : ∀ a, (g a).base = a.base)
    (kind' : Kind) (base' : ℕ) :
    (s.update kind base g).find kind' base' =
      if kind' = kind ∧ base' = base then (s.find kind base).map g else s.find kind' base' := by
  have hbase : ∀ a : Allocation, (if a.base = base then g a else a).base = a.base := fun a => by
    split
    · exact hg a
    · rfl
  by_cases hkind : kind' = kind
  · subst hkind
    simp only [State.find, State.update, Function.update_self, List.find?_map, Function.comp_def,
      hbase, true_and]
    by_cases heq : base' = base
    · subst heq
      rw [if_pos rfl]
      cases h : (s.allocations kind').find? fun a => decide (a.base = base') with
      | none => rfl
      | some a =>
        have : a.base = base' := by simpa using List.find?_some h
        simp [this]
    · rw [if_neg heq]
      cases h : (s.allocations kind').find? fun a => decide (a.base = base') with
      | none => rfl
      | some a =>
        have : a.base = base' := by simpa using List.find?_some h
        simp [this, heq]
  · simp [State.find, State.update, hkind]

variable {a : Allocation}

/-- The entry of an address is the entry of its own address. -/
theorem State.base_of_find (h : s.find kind base = some a) : a.base = base := by
  simpa using List.find?_some h

/-- No two entries have the same address. -/
def State.Keyed (s : State) : Prop := ∀ kind, ((s.allocations kind).map Allocation.base).Nodup

/-- A change of an entry keeps the addresses. -/
theorem State.Keyed.update (h : s.Keyed) (hg : ∀ a, (g a).base = a.base) :
    (s.update kind base g).Keyed := by
  intro kind'
  have hbase : (fun a : Allocation => (if a.base = base then g a else a).base) =
      Allocation.base := by
    funext a
    split
    · exact hg a
    · rfl
  by_cases heq : kind' = kind
  · subst heq
    simpa [State.update, Function.comp_def, hbase] using h kind'
  · simpa [State.update, heq] using h kind'

/-- An entry of a registry is found at its address. -/
theorem State.Keyed.find (h : s.Keyed) (ha : a ∈ s.allocations kind) :
    s.find kind a.base = some a := by
  cases hfind : s.find kind a.base with
  | none =>
    have := List.find?_eq_none.mp hfind a ha
    simp at this
  | some a' =>
    have hmem : a' ∈ s.allocations kind := List.mem_of_find?_eq_some hfind
    rw [List.inj_on_of_nodup_map (h kind) hmem ha (State.base_of_find hfind)]

/-- The entry without its count. -/
def Allocation.fixed (a : Allocation) : Allocation := { a with activeOperations := 0 }

/-- What entries that differ only in their counts share. -/
theorem Allocation.of_fixed {a a' : Allocation} (h : a.fixed = a'.fixed) :
    a.base = a'.base ∧ a.deviceIndex = a'.deviceIndex ∧ a.size = a'.size ∧
      a.destroying = a'.destroying ∧ a.id = a'.id := by
  simpa [Allocation.fixed] using h

/-- Only counts have changed. -/
structure State.Same (s s' : State) : Prop where
  find : ∀ kind base, (s'.find kind base).map Allocation.fixed = (s.find kind base).map Allocation.fixed
  backing : s'.backing = s.backing
  releases : s'.releases = s.releases
  nextId : s'.nextId = s.nextId

/-- Nothing has changed. -/
theorem State.Same.refl (s : State) : s.Same s := ⟨fun _ _ => rfl, rfl, rfl, rfl⟩

/-- One change after the other. -/
theorem State.Same.trans {s'' : State} (h : s.Same s') (h' : s'.Same s'') : s.Same s'' where
  find := fun kind base => (h'.find kind base).trans (h.find kind base)
  backing := h'.backing.trans h.backing
  releases := h'.releases.trans h.releases
  nextId := h'.nextId.trans h.nextId

/-- An entry is still there. -/
theorem State.Same.find_some (h : s.Same s') (ha : s.find kind base = some a) :
    ∃ a', s'.find kind base = some a' ∧ a'.fixed = a.fixed := by
  have hfind := h.find kind base
  rw [ha] at hfind
  obtain ⟨a', ha', heq⟩ := Option.map_eq_some_iff.mp hfind
  exact ⟨a', ha', heq⟩

/-- An entry was there before. -/
theorem State.Same.find_before (h : s.Same s') {a' : Allocation} (ha : s'.find kind base = some a') :
    ∃ a, s.find kind base = some a ∧ a'.fixed = a.fixed := by
  have hfind := h.find kind base
  rw [ha] at hfind
  obtain ⟨a, ha, heq⟩ := Option.map_eq_some_iff.mp hfind.symm
  exact ⟨a, ha, heq.symm⟩

/-- A change of a count. -/
theorem State.same_update (s : State) (kind : Kind) (base : ℕ) (n : ℕ → ℕ) :
    s.Same (s.update kind base fun a => { a with activeOperations := n a.activeOperations }) := by
  refine ⟨fun kind' base' => ?_, rfl, rfl, rfl⟩
  rw [State.find_update]
  · split
    · rename_i heq
      obtain ⟨rfl, rfl⟩ := heq
      cases s.find kind' base' <;> rfl
    · rfl
  · exact fun _ => rfl

/-- The counts are right, `f` pins on each entry, and entries own memory of their own. -/
structure State.Books (s : State) (f : Pin → ℕ) : Prop where
  /-- No two entries have the same address. -/
  keyed : s.Keyed
  /-- The count of an entry is the number of its pins. -/
  count : ∀ kind base a, s.find kind base = some a → a.activeOperations = f (kind, base)
  /-- Only entries are pinned. -/
  pinned : ∀ kind base, 0 < f (kind, base) → ∃ a, s.find kind base = some a
  /-- The memory of an entry has been named and has not been released. -/
  memory : ∀ kind base a, s.find kind base = some a → a.id < s.nextId ∧ a.id ∉ s.releases ∧
    s.backing a.id = .intact
  /-- Entries do not share memory. -/
  own : ∀ kind base a kind' base' a', s.find kind base = some a → s.find kind' base' = some a' →
    a.id = a'.id → kind = kind' ∧ base = base'
  /-- What has been released had been named. -/
  named : ∀ id ∈ s.releases, id < s.nextId
  /-- It has been released once. -/
  once : s.releases.Nodup

/-- The books after a change of counts. -/
theorem State.Books.of_same (h : s.Books f) {f' : Pin → ℕ} (hsame : s.Same s') (hkeyed : s'.Keyed)
    (hcount : ∀ kind base a, s'.find kind base = some a → a.activeOperations = f' (kind, base))
    (hpinned : ∀ kind base, 0 < f' (kind, base) → ∃ a, s.find kind base = some a) :
    s'.Books f' where
  keyed := hkeyed
  count := hcount
  pinned := fun kind base hpos => by
    obtain ⟨a, ha⟩ := hpinned kind base hpos
    obtain ⟨a', ha', -⟩ := hsame.find_some ha
    exact ⟨a', ha'⟩
  memory := fun kind base a ha => by
    obtain ⟨a₀, ha₀, heq⟩ := hsame.find_before ha
    rw [(Allocation.of_fixed heq).2.2.2.2, hsame.nextId, hsame.releases, hsame.backing]
    exact h.memory kind base a₀ ha₀
  own := fun kind base a kind' base' a' ha ha' hid => by
    obtain ⟨a₀, ha₀, heq⟩ := hsame.find_before ha
    obtain ⟨a₁, ha₁, heq'⟩ := hsame.find_before ha'
    refine h.own kind base a₀ kind' base' a₁ ha₀ ha₁ ?_
    rw [← (Allocation.of_fixed heq).2.2.2.2, ← (Allocation.of_fixed heq').2.2.2.2]
    exact hid
  named := by rw [hsame.releases, hsame.nextId]; exact h.named
  once := by rw [hsame.releases]; exact h.once

/-- One count of an entry changes together with its pins. -/
theorem State.Books.change (h : s.Books f) {p : Pin} {n : ℕ → ℕ} {m : ℕ}
    (hn : n (f p) = m) (hpos : 0 < m → ∃ a, s.find p.1 p.2 = some a) :
    (s.update p.1 p.2 fun a => { a with activeOperations := n a.activeOperations }).Books
      (Function.update f p m) := by
  refine h.of_same (s.same_update p.1 p.2 n) (h.keyed.update fun _ => rfl)
    (fun kind base a ha => ?_) fun kind base hpos' => ?_
  · rw [State.find_update s p.1 p.2 (g := fun a => { a with activeOperations := n a.activeOperations })
      fun _ => rfl] at ha
    split at ha
    · rename_i heq
      obtain ⟨rfl, rfl⟩ := heq
      obtain ⟨a₀, ha₀, rfl⟩ := Option.map_eq_some_iff.mp ha
      have hcount : a₀.activeOperations = f p := h.count p.1 p.2 a₀ ha₀
      simp [hcount, hn]
    · rename_i hne
      have hp : (kind, base) ≠ p := fun heq => hne ⟨congrArg Prod.fst heq, congrArg Prod.snd heq⟩
      rw [Function.update_of_ne hp]
      exact h.count kind base a ha
  · by_cases hp : (kind, base) = p
    · subst hp
      rw [Function.update_self] at hpos'
      exact hpos hpos'
    · rw [Function.update_of_ne hp] at hpos'
      exact h.pinned kind base hpos'

/-- One pin more. -/
theorem State.Books.pin (h : s.Books f) {p : Pin} {full : Bool} (hpin : Memory.pin p full s = some s') :
    s'.Books (Function.update f p (f p + 1)) ∧ s.Same s' ∧
      ∃ a, s.find p.1 p.2 = some a ∧ a.destroying = false := by
  unfold Memory.pin at hpin
  split at hpin
  · cases hpin
  · rename_i a ha
    split at hpin
    · cases hpin
    · rename_i hfree
      obtain rfl := Option.some.inj hpin
      refine ⟨h.change (n := (· + 1)) rfl fun _ => ⟨a, ha⟩, s.same_update p.1 p.2 (· + 1), a, ha, ?_⟩
      simp only [Bool.or_eq_true, not_or, Bool.not_eq_true] at hfree
      exact hfree.1

variable {full : List Bool}

/-- Pins taken one after the other. -/
theorem State.Books.pinAll (h : s.Books f) {ps pins : List Pin} {all : Bool}
    (hpin : Memory.pinAll ps full s = (all, pins, s')) :
    s'.Books (fun p => f p + pins.count p) ∧ s.Same s' ∧ (all = true → pins = ps) ∧
      ∀ p ∈ pins, ∃ a, s.find p.1 p.2 = some a ∧ a.destroying = false := by
  induction ps generalizing s f full pins with
  | nil =>
    obtain ⟨rfl, rfl, rfl⟩ : true = all ∧ [] = pins ∧ s = s' := by simpa [Memory.pinAll] using hpin
    exact ⟨by simpa using h, .refl s, fun _ => rfl, nofun⟩
  | cons p rest ih =>
    unfold Memory.pinAll at hpin
    split at hpin
    · obtain ⟨rfl, rfl, rfl⟩ : false = all ∧ [] = pins ∧ s = s' := by simpa using hpin
      exact ⟨by simpa using h, .refl s, nofun, nofun⟩
    · rename_i s₁ hone
      obtain ⟨hbooks, hsame, hfree⟩ := h.pin hone
      cases hrest : Memory.pinAll rest full.tail s₁ with
      | mk all' more =>
        rw [hrest] at hpin
        obtain ⟨rfl, rfl, rfl⟩ : all' = all ∧ p :: more.1 = pins ∧ more.2 = s' := by simpa using hpin
        obtain ⟨hbooks', hsame', hall, hmore⟩ := ih hbooks hrest
        refine ⟨?_, hsame.trans hsame', fun htrue => by rw [hall htrue], fun p' hp' => ?_⟩
        · have hcount : (fun p' => Function.update f p (f p + 1) p' + more.1.count p') =
              fun p' => f p' + (p :: more.1).count p' := by
            funext p'
            by_cases heq : p' = p
            · subst heq
              rw [Function.update_self, List.count_cons_self]
              omega
            · rw [Function.update_of_ne heq, List.count_cons_of_ne (Ne.symm heq)]
          rw [← hcount]
          exact hbooks'
        · rcases List.mem_cons.mp hp' with rfl | hp'
          · exact hfree
          · obtain ⟨a', ha', hdestroying⟩ := hmore p' hp'
            obtain ⟨a, ha, heq⟩ := hsame.find_before ha'
            exact ⟨a, ha, (Allocation.of_fixed heq).2.2.2.1.symm.trans hdestroying⟩

/-- Pins given back. -/
theorem State.Books.releasePins (h : s.Books f) {pins : List Pin} (hle : ∀ p, pins.count p ≤ f p) :
    (Memory.releasePins pins s).Books (fun p => f p - pins.count p) ∧
      s.Same (Memory.releasePins pins s) := by
  induction pins generalizing s f with
  | nil => exact ⟨by simpa [Memory.releasePins] using h, .refl s⟩
  | cons p rest ih =>
    have hpos : 0 < f p := by
      have := hle p
      rw [List.count_cons_self] at this
      omega
    have hless := h.change (p := p) (n := (· - 1)) rfl fun _ => h.pinned p.1 p.2 hpos
    have hrest : ∀ p', rest.count p' ≤ Function.update f p (f p - 1) p' := by
      intro p'
      have := hle p'
      by_cases heq : p' = p
      · subst heq
        rw [List.count_cons_self] at this
        rw [Function.update_self]
        omega
      · rw [List.count_cons_of_ne (Ne.symm heq)] at this
        rwa [Function.update_of_ne heq]
    obtain ⟨hbooks, hsame⟩ := ih hless hrest
    refine ⟨?_, (s.same_update p.1 p.2 (· - 1)).trans hsame⟩
    have hcount : (fun p' => Function.update f p (f p - 1) p' - rest.count p') =
        fun p' => f p' - (p :: rest).count p' := by
      funext p'
      by_cases heq : p' = p
      · subst heq
        rw [Function.update_self, List.count_cons_self]
        omega
      · rw [Function.update_of_ne heq, List.count_cons_of_ne (Ne.symm heq)]
    rw [← hcount]
    exact hbooks

/-- The bytes lie in the allocation, and it belongs to the device. -/
def Allocation.Covers (a : Allocation) (device address size : ℕ) : Prop :=
  a.deviceIndex = device ∧ a.base ≤ address ∧ address + size ≤ a.base + a.size

/-- The ranges on the device lie in the entries that have been found. -/
def Copy.DeviceWithin (copy : Copy) (bases : List ℕ) (s : State) : Prop :=
  ∀ address ∈ copy.deviceAddresses, ∃ base ∈ bases, ∃ a,
    s.find .device base = some a ∧ a.Covers copy.device address copy.size

/-- The range on the host, if it is pinned memory, lies in the entry that has been found. -/
def Copy.HostWithin (copy : Copy) (host : Option ℕ) (s : State) : Prop :=
  ∀ base, host = some base → ∃ address a, copy.hostAddress = some address ∧
    s.find .host base = some a ∧ a.Covers copy.device address copy.size

/-- The copy has pinned the entries it has found. -/
structure Accepted.Pinned (accepted : Accepted) : Prop where
  device : ∀ base ∈ accepted.bases, (Kind.device, base) ∈ accepted.pins
  host : ∀ base, accepted.host = some base → (Kind.host, base) ∈ accepted.pins

variable {backend : Backend}

/-- What `find_allocation_base` finds. -/
theorem findAllocation_spec {device address size : ℕ} (hkeyed : s.Keyed)
    (h : findAllocation backend device address size s = some a) :
    s.find .device a.base = some a ∧ a.Covers device address size := by
  have hmem := List.mem_of_find?_eq_some h
  have htest := List.find?_some h
  simp only [Bool.and_eq_true, decide_eq_true_eq] at htest
  obtain ⟨⟨hdevice, -⟩, hcontains⟩ := htest
  refine ⟨hkeyed.find hmem, hdevice, ?_⟩
  unfold contains at hcontains
  cases backend <;> simp at hcontains <;> omega

/-- What `translate_host_pointer` finds. -/
theorem translateHostPointer_spec {device address size base : ℕ} (hkeyed : s.Keyed)
    (h : translateHostPointer device address size s = .valid base) :
    ∃ a, s.find .host base = some a ∧ a.Covers device address size := by
  unfold translateHostPointer at h
  split at h
  · cases h
  · rename_i a hfind
    have hmem := List.mem_of_find?_eq_some hfind
    have htest := List.find?_some hfind
    simp only [Bool.and_eq_true, decide_eq_true_eq] at htest
    split at h
    · cases h
    · rename_i hvalid
      obtain rfl := HostPointerLookup.valid.inj h
      simp only [not_or, not_not] at hvalid
      exact ⟨a, hkeyed.find hmem, hvalid.1, htest.1, by omega⟩

/-- A list that has been looked up. -/
theorem exists_of_mapM {α β : Type} {g : α → Option β} {l : List α} {r : List β}
    (h : l.mapM g = some r) {a : α} (ha : a ∈ l) : ∃ b ∈ r, g a = some b := by
  induction l generalizing r with
  | nil => cases ha
  | cons x rest ih =>
    simp only [List.mapM_cons, Option.bind_eq_bind, Option.bind_eq_some_iff, Option.pure_def] at h
    obtain ⟨b, hb, r', hr', h⟩ := h
    obtain rfl := Option.some.inj h
    rcases List.mem_cons.mp ha with rfl | ha
    · exact ⟨b, List.mem_cons_self, hb⟩
    · obtain ⟨b', hb', hfound⟩ := ih hr' ha
      exact ⟨b', List.mem_cons_of_mem _ hb', hfound⟩

variable {copy : Copy} {bases : List ℕ}

/-- What the lookups on the device find. -/
theorem deviceWithin_of_findBases (hkeyed : s.Keyed) (h : copy.findBases backend s = some bases) :
    copy.DeviceWithin bases s := by
  intro address haddress
  obtain ⟨base, hbase, hfound⟩ := exists_of_mapM h haddress
  obtain ⟨a, ha, rfl⟩ := Option.map_eq_some_iff.mp hfound
  exact ⟨a.base, hbase, a, findAllocation_spec hkeyed ha⟩

/-- What the lookup on the host finds. -/
theorem hostWithin_hostLookup (copy : Copy) (hkeyed : s.Keyed) :
    copy.HostWithin (copy.hostLookup s).base s := by
  intro base hbase
  have h : copy.hostLookup s = .valid base := by
    cases hlookup : copy.hostLookup s <;> simp_all [HostPointerLookup.base]
  unfold Copy.hostLookup at h
  split at h
  · cases h
  · rename_i address haddress
    obtain ⟨a, ha⟩ := translateHostPointer_spec hkeyed h
    exact ⟨address, a, haddress, ha⟩

/-- An entry covers the same bytes after a change of counts. -/
theorem State.Same.covers (h : s.Same s') {device address size : ℕ}
    (hfind : ∃ a, s.find kind base = some a ∧ a.Covers device address size) :
    ∃ a, s'.find kind base = some a ∧ a.Covers device address size := by
  obtain ⟨a, ha, hcovers⟩ := hfind
  obtain ⟨a', ha', heq⟩ := h.find_some ha
  obtain ⟨hb, hd, hs, -⟩ := Allocation.of_fixed heq
  exact ⟨a', ha', by rw [Allocation.Covers, hb, hd, hs]; exact hcovers⟩

/-- The ranges on the device after a change of counts. -/
theorem Copy.DeviceWithin.of_same (h : copy.DeviceWithin bases s) (hsame : s.Same s') :
    copy.DeviceWithin bases s' := by
  intro address haddress
  obtain ⟨base, hbase, hfind⟩ := h address haddress
  exact ⟨base, hbase, hsame.covers hfind⟩

/-- The range on the host after a change of counts. -/
theorem Copy.HostWithin.of_same {host : Option ℕ} (h : copy.HostWithin host s) (hsame : s.Same s') :
    copy.HostWithin host s' := by
  intro base hbase
  obtain ⟨address, a, haddress, hfind⟩ := h base hbase
  obtain ⟨a', hfind'⟩ := hsame.covers ⟨a, hfind⟩
  exact ⟨address, a', haddress, hfind'⟩

/-- Pins that have been taken are given back. -/
theorem State.Books.giveBack {pins : List Pin} (h : s'.Books fun p => f p + pins.count p)
    (hsame : s.Same s') :
    (Memory.releasePins pins s').Books f ∧ s.Same (Memory.releasePins pins s') := by
  have hle : ∀ p, pins.count p ≤ f p + pins.count p := fun p => Nat.le_add_left _ _
  obtain ⟨hbooks, hsame'⟩ := h.releasePins hle
  refine ⟨?_, hsame.trans hsame'⟩
  simpa using hbooks

/-- A copy has been accepted. -/
structure Accepts (backend : Backend) (copy : Copy) (f : Pin → ℕ) (s : State) (accepted : Accepted)
    (s' : State) : Prop where
  /-- The pins are counted. -/
  books : s'.Books fun p => f p + accepted.pins.count p
  /-- Only counts have changed. -/
  same : s.Same s'
  /-- The arguments are kept. -/
  arguments : accepted.copy = copy
  /-- The ranges lie in the entries. -/
  device : copy.DeviceWithin accepted.bases s'
  host : copy.HostWithin accepted.host s'
  /-- The entries are pinned unless the lock is kept. -/
  pinned : backend ≠ .lightRocr → accepted.Pinned
  /-- Entries that are being freed are not pinned. -/
  free : ∀ p ∈ accepted.pins, ∃ a, s.find p.1 p.2 = some a ∧ a.destroying = false

/-- All pins of a copy have been taken. -/
theorem accepts_of_pins {host : Option ℕ}
    (hbooks : s'.Books fun p => f p + (pinsOf bases host).count p) (hsame : s.Same s')
    (hdevice : copy.DeviceWithin bases s') (hhost : copy.HostWithin host s')
    (hfree : ∀ p ∈ pinsOf bases host, ∃ a, s.find p.1 p.2 = some a ∧ a.destroying = false) :
    Accepts backend copy f s ⟨copy, bases, host, pinsOf bases host⟩ s' where
  books := hbooks
  same := hsame
  arguments := rfl
  device := hdevice
  host := hhost
  pinned := fun _ => ⟨fun _ hbase => List.mem_append_left _ (List.mem_map_of_mem hbase),
    fun _ hbase => List.mem_append_right _ (List.mem_map_of_mem (Option.mem_toList.mpr hbase))⟩
  free := hfree

/-- A copy that is accepted has pinned the entries its ranges lie in. -/
theorem accept_some {accepted : Accepted} (hbooks : s.Books f)
    (h : accept backend copy full s = (some accepted, s')) :
    Accepts backend copy f s accepted s' := by
  unfold accept at h
  split at h
  · cases h
  rename_i bases hbases
  have hdevice := deviceWithin_of_findBases hbooks.keyed hbases
  cases backend with
  | hsa =>
    dsimp only at h
    obtain ⟨all, pins, s₁, hpins⟩ : ∃ all pins s₁,
        Memory.pinAll (pinsOf bases none) [] s = (all, pins, s₁) := ⟨_, _, _, rfl⟩
    obtain ⟨hbooks₁, hsame₁, hall, hfree⟩ := hbooks.pinAll hpins
    rw [hpins] at h
    dsimp only at h
    split at h
    · cases h
    rename_i hpass
    obtain rfl := hall (by simpa using (not_or.mp hpass).1)
    have hhost := hostWithin_hostLookup copy hbooks₁.keyed
    obtain ⟨all', hostPins, s₂, hpins'⟩ : ∃ all pins s₂,
        Memory.pinAll (pinsOf [] (copy.hostLookup s₁).base) [] s₁ = (all, pins, s₂) :=
      ⟨_, _, _, rfl⟩
    obtain ⟨hbooks₂, hsame₂, hall', hfree'⟩ := hbooks₁.pinAll hpins'
    rw [hpins'] at h
    dsimp only at h
    split at h
    · cases h
    rename_i htrue
    obtain rfl := hall' (by simpa using htrue)
    obtain ⟨rfl, rfl⟩ : Accepted.mk copy bases _ _ = accepted ∧ s₂ = s' := by simpa using h
    have hsplit : pinsOf bases none ++ pinsOf [] (copy.hostLookup s₁).base =
        pinsOf bases (copy.hostLookup s₁).base := by
      simp [pinsOf]
    rw [hsplit]
    refine accepts_of_pins ?_ (hsame₁.trans hsame₂) (hdevice.of_same (hsame₁.trans hsame₂))
      (hhost.of_same hsame₂) ?_
    · simpa only [← hsplit, List.count_append, ← Nat.add_assoc] using hbooks₂
    · intro p hp
      rw [← hsplit] at hp
      rcases List.mem_append.mp hp with hp | hp
      · exact hfree p hp
      · obtain ⟨a, ha, hkept⟩ := hfree' p hp
        obtain ⟨a₀, ha₀, heq⟩ := hsame₁.find_before ha
        exact ⟨a₀, ha₀, (Allocation.of_fixed heq).2.2.2.1.symm.trans hkept⟩
  | lightRocr =>
    dsimp only at h
    split at h
    · cases h
    · obtain ⟨rfl, rfl⟩ : Accepted.mk copy bases _ [] = accepted ∧ s = s' := by simpa using h
      exact ⟨by simpa using hbooks, .refl s, rfl, hdevice,
        hostWithin_hostLookup copy hbooks.keyed, fun hne => absurd rfl hne, nofun⟩
  | directKfd =>
    dsimp only at h
    split at h
    · cases h
    obtain ⟨all, pins, s₁, hpins⟩ : ∃ all pins s₁,
        Memory.pinAll (pinsOf bases (copy.hostLookup s).base) full s = (all, pins, s₁) :=
      ⟨_, _, _, rfl⟩
    obtain ⟨hbooks₁, hsame₁, hall, hfree⟩ := hbooks.pinAll hpins
    rw [hpins] at h
    dsimp only at h
    split at h
    · cases h
    rename_i htrue
    obtain rfl := hall (by simpa using htrue)
    obtain ⟨rfl, rfl⟩ : Accepted.mk copy bases _ _ = accepted ∧ s₁ = s' := by simpa using h
    exact accepts_of_pins hbooks₁ hsame₁ (hdevice.of_same hsame₁)
      ((hostWithin_hostLookup copy hbooks.keyed).of_same hsame₁) hfree

/-- A copy that is refused changes no count. -/
theorem accept_none (hbooks : s.Books f) (h : accept backend copy full s = (none, s')) :
    s'.Books f ∧ s.Same s' := by
  unfold accept at h
  split at h
  · obtain rfl : s = s' := by simpa using h
    exact ⟨hbooks, .refl s⟩
  rename_i bases hbases
  cases backend with
  | hsa =>
    dsimp only at h
    obtain ⟨all, pins, s₁, hpins⟩ : ∃ all pins s₁,
        Memory.pinAll (pinsOf bases none) [] s = (all, pins, s₁) := ⟨_, _, _, rfl⟩
    obtain ⟨hbooks₁, hsame₁, -, -⟩ := hbooks.pinAll hpins
    rw [hpins] at h
    dsimp only at h
    split at h
    · obtain rfl : releasePins pins s₁ = s' := by simpa using h
      exact hbooks₁.giveBack hsame₁
    obtain ⟨all', hostPins, s₂, hpins'⟩ : ∃ all pins s₂,
        Memory.pinAll (pinsOf [] (copy.hostLookup s₁).base) [] s₁ = (all, pins, s₂) :=
      ⟨_, _, _, rfl⟩
    obtain ⟨hbooks₂, hsame₂, -, -⟩ := hbooks₁.pinAll hpins'
    rw [hpins'] at h
    dsimp only at h
    split at h
    · obtain rfl : releasePins hostPins (releasePins pins s₂) = s' := by simpa using h
      have hswap : (fun p => f p + pins.count p + hostPins.count p) =
          fun p => f p + hostPins.count p + pins.count p :=
        funext fun p => Nat.add_right_comm _ _ _
      rw [hswap] at hbooks₂
      obtain ⟨hbooks₃, hsame₃⟩ := hbooks₂.giveBack (hsame₁.trans hsame₂)
      exact hbooks₃.giveBack hsame₃
    · cases h
  | lightRocr =>
    dsimp only at h
    split at h
    · obtain rfl : s = s' := by simpa using h
      exact ⟨hbooks, .refl s⟩
    · cases h
  | directKfd =>
    dsimp only at h
    split at h
    · obtain rfl : s = s' := by simpa using h
      exact ⟨hbooks, .refl s⟩
    split at h
    · obtain rfl := (Prod.mk.inj h).2
      obtain ⟨hbooks₁, hsame₁, -, -⟩ := hbooks.pinAll rfl
      exact hbooks₁.giveBack hsame₁
    · cases h

/-- A change that leaves the address, the count and the memory of an entry alone. -/
theorem State.Books.update (h : s.Books f) (kind : Kind) (base : ℕ)
    (hg : ∀ a, (g a).base = a.base ∧ (g a).activeOperations = a.activeOperations ∧ (g a).id = a.id)
    :
    (s.update kind base g).Books f := by
  -- The entry of an address has its old count and its old memory.
  have hbefore : ∀ {kind' base' a}, (s.update kind base g).find kind' base' = some a →
      ∃ a₀, s.find kind' base' = some a₀ ∧ a.activeOperations = a₀.activeOperations ∧ a.id = a₀.id := by
    intro kind' base' a ha
    rw [State.find_update s kind base fun a => (hg a).1] at ha
    split at ha
    · rename_i heq
      obtain ⟨rfl, rfl⟩ := heq
      obtain ⟨a₀, ha₀, rfl⟩ := Option.map_eq_some_iff.mp ha
      exact ⟨a₀, ha₀, (hg a₀).2⟩
    · exact ⟨a, ha, rfl, rfl⟩
  refine {
    keyed := h.keyed.update fun a => (hg a).1
    count := fun kind' base' a ha => ?_
    pinned := fun kind' base' hpos => ?_
    memory := fun kind' base' a ha => ?_
    own := fun kind₁ base₁ a₁ kind₂ base₂ a₂ ha₁ ha₂ hid => ?_
    named := h.named
    once := h.once }
  · obtain ⟨a₀, ha₀, hcount, -⟩ := hbefore ha
    exact hcount.trans (h.count kind' base' a₀ ha₀)
  · obtain ⟨a, ha⟩ := h.pinned kind' base' hpos
    rw [State.find_update s kind base fun a => (hg a).1]
    split
    · rename_i heq
      obtain ⟨rfl, rfl⟩ := heq
      exact ⟨g a, by rw [ha]; rfl⟩
    · exact ⟨a, ha⟩
  · obtain ⟨a₀, ha₀, -, hid⟩ := hbefore ha
    rw [hid]
    exact h.memory kind' base' a₀ ha₀
  · obtain ⟨b₁, hb₁, -, hid₁⟩ := hbefore ha₁
    obtain ⟨b₂, hb₂, -, hid₂⟩ := hbefore ha₂
    exact h.own kind₁ base₁ b₁ kind₂ base₂ b₂ hb₁ hb₂ (hid₁.symm.trans (hid.trans hid₂))

/-- The entries at other addresses, without the one at `base`. -/
def State.others (s : State) (kind : Kind) (base : ℕ) : List Allocation :=
  (s.allocations kind).filter fun a => decide (a.base ≠ base)

/-- What is found among them. -/
theorem State.find_others (s : State) (kind : Kind) (base base' : ℕ) :
    (s.others kind base).find? (fun a => decide (a.base = base')) =
      if base' = base then none else s.find kind base' := by
  unfold State.others State.find
  rw [List.find?_filter]
  split
  · rename_i heq
    subst heq
    refine List.find?_eq_none.mpr fun a _ => ?_
    by_cases h : a.base = base' <;> simp [h]
  · rename_i hne
    congr 1
    funext a
    by_cases h : a.base = base' <;> simp [h, hne]

/-- The entry of an address after a registry has changed. -/
theorem State.find_of_allocations {entries : List Allocation}
    (h : s'.allocations = Function.update s.allocations kind entries) (kind' : Kind) (base' : ℕ) :
    s'.find kind' base' = if kind' = kind then entries.find? (fun a => decide (a.base = base'))
      else s.find kind' base' := by
  unfold State.find
  rw [h]
  by_cases hkind : kind' = kind
  · subst hkind
    simp
  · simp [hkind]

/-- A registry with different addresses has changed. -/
theorem State.Keyed.of_allocations (hkeyed : s.Keyed) {entries : List Allocation}
    (h : s'.allocations = Function.update s.allocations kind entries)
    (hnodup : (entries.map Allocation.base).Nodup) : s'.Keyed := by
  intro kind'
  rw [h]
  by_cases hkind : kind' = kind
  · subst hkind
    simpa using hnodup
  · simpa [hkind] using hkeyed kind'

/-- Their addresses are different. -/
theorem State.Keyed.others (h : s.Keyed) (kind : Kind) (base : ℕ) :
    ((s.others kind base).map Allocation.base).Nodup ∧
      base ∉ (s.others kind base).map Allocation.base := by
  refine ⟨(h kind).sublist (List.filter_sublist.map _), fun hmem => ?_⟩
  obtain ⟨a, ha, heq⟩ := List.mem_map.mp hmem
  exact absurd heq (by simpa using (List.mem_filter.mp ha).2)

/-- The entries after a new one has been added. -/
theorem State.find_inserted
    (halloc : s'.allocations = Function.update s.allocations kind (s.others kind a.base ++ [a]))
    (kind' : Kind) (base' : ℕ) : s'.find kind' base' =
      if kind' = kind ∧ base' = a.base then some a else s.find kind' base' := by
  rw [State.find_of_allocations halloc]
  by_cases hkind : kind' = kind
  · subst hkind
    rw [if_pos rfl, List.find?_append, State.find_others]
    by_cases hbase : base' = a.base
    · subst hbase
      simp
    · simp [hbase, Ne.symm hbase]
  · simp [hkind]

/-- The entries after one has been taken out. -/
theorem State.find_erased
    (halloc : s'.allocations = Function.update s.allocations kind (s.others kind base))
    (kind' : Kind) (base' : ℕ) : s'.find kind' base' =
      if kind' = kind ∧ base' = base then none else s.find kind' base' := by
  rw [State.find_of_allocations halloc]
  by_cases hkind : kind' = kind
  · subst hkind
    rw [if_pos rfl, State.find_others]
    simp
  · simp [hkind]

/-- A new entry with memory of its own. -/
theorem State.Books.insert (h : s.Books f) {a : Allocation} (hfresh : s.find kind a.base = none)
    (hid : a.id = s.nextId) (hactive : a.activeOperations = 0)
    (halloc : s'.allocations = Function.update s.allocations kind (s.others kind a.base ++ [a]))
    (hbacking : s'.backing = Function.update s.backing s.nextId .intact)
    (hreleases : s'.releases = s.releases) (hnext : s'.nextId = s.nextId + 1) : s'.Books f := by
  have hfind := State.find_inserted halloc
  have hold : ∀ {kind' base' a'}, s'.find kind' base' = some a' →
      (kind' = kind ∧ base' = a.base ∧ a' = a) ∨ s.find kind' base' = some a' := by
    intro kind' base' a' ha'
    rw [hfind] at ha'
    split at ha'
    · rename_i heq
      exact Or.inl ⟨heq.1, heq.2, (Option.some.inj ha').symm⟩
    · exact Or.inr ha'
  refine {
    keyed := h.keyed.of_allocations halloc ?_
    count := fun kind' base' a' ha' => ?_
    pinned := fun kind' base' hpos => ?_
    memory := fun kind' base' a' ha' => ?_
    own := fun kind₁ base₁ a₁ kind₂ base₂ a₂ ha₁ ha₂ heq => ?_
    named := fun id hmem => ?_
    once := hreleases ▸ h.once }
  · obtain ⟨hnodup, hnot⟩ := h.keyed.others kind a.base
    simpa using List.nodup_append_comm.mp (List.nodup_cons.mpr ⟨hnot, hnodup⟩)
  · rcases hold ha' with ⟨rfl, rfl, rfl⟩ | ha'
    · rw [hactive]
      by_contra hne
      obtain ⟨a₀, ha₀⟩ := h.pinned kind' a'.base (Nat.pos_of_ne_zero (Ne.symm hne))
      rw [hfresh] at ha₀
      cases ha₀
    · exact h.count kind' base' a' ha'
  · obtain ⟨a₀, ha₀⟩ := h.pinned kind' base' hpos
    rw [hfind]
    split
    · exact ⟨a, rfl⟩
    · exact ⟨a₀, ha₀⟩
  · rw [hnext, hreleases, hbacking]
    rcases hold ha' with ⟨rfl, rfl, rfl⟩ | ha'
    · rw [hid, Function.update_self]
      exact ⟨by omega, fun hmem => absurd (h.named _ hmem) (lt_irrefl _), rfl⟩
    · obtain ⟨hlt, hnot, hintact⟩ := h.memory kind' base' a' ha'
      rw [Function.update_of_ne hlt.ne]
      exact ⟨by omega, hnot, hintact⟩
  · rcases hold ha₁ with ⟨rfl, rfl, rfl⟩ | hb₁ <;> rcases hold ha₂ with ⟨rfl, rfl, rfl⟩ | hb₂
    · exact ⟨rfl, rfl⟩
    · have := (h.memory kind₂ base₂ a₂ hb₂).1
      omega
    · have := (h.memory kind₁ base₁ a₁ hb₁).1
      omega
    · exact h.own kind₁ base₁ a₁ kind₂ base₂ a₂ hb₁ hb₂ heq
  · rw [hreleases] at hmem
    have := h.named id hmem
    omega

/-- An entry without pins is taken out of the registry and its memory is released. -/
theorem State.Books.erase (h : s.Books f) (ha : s.find kind base = some a)
    (hzero : f (kind, base) = 0)
    (halloc : s'.allocations = Function.update s.allocations kind (s.others kind base))
    (hbacking : s'.backing = Function.update s.backing a.id .released)
    (hreleases : s'.releases = s.releases ++ [a.id]) (hnext : s'.nextId = s.nextId) :
    s'.Books f := by
  have hfind := State.find_erased halloc
  have hold : ∀ {kind' base' a'}, s'.find kind' base' = some a' →
      s.find kind' base' = some a' ∧ ¬ (kind' = kind ∧ base' = base) := by
    intro kind' base' a' ha'
    rw [hfind] at ha'
    split at ha'
    · cases ha'
    · exact ⟨ha', ‹_›⟩
  obtain ⟨hlt, hnot, -⟩ := h.memory kind base a ha
  refine {
    keyed := h.keyed.of_allocations halloc (h.keyed.others kind base).1
    count := fun kind' base' a' ha' => h.count kind' base' a' (hold ha').1
    pinned := fun kind' base' hpos => ?_
    memory := fun kind' base' a' ha' => ?_
    own := fun kind₁ base₁ a₁ kind₂ base₂ a₂ ha₁ ha₂ heq =>
      h.own kind₁ base₁ a₁ kind₂ base₂ a₂ (hold ha₁).1 (hold ha₂).1 heq
    named := fun id hmem => ?_
    once := ?_ }
  · obtain ⟨a₀, ha₀⟩ := h.pinned kind' base' hpos
    refine ⟨a₀, ?_⟩
    rw [hfind, if_neg]
    · exact ha₀
    · rintro ⟨rfl, rfl⟩
      omega
  · obtain ⟨ha', hne⟩ := hold ha'
    have hdiffers : a'.id ≠ a.id := fun heq => hne (h.own kind' base' a' kind base a ha' ha heq)
    obtain ⟨hlt', hnot', hintact⟩ := h.memory kind' base' a' ha'
    rw [hnext, hreleases, hbacking, Function.update_of_ne hdiffers]
    exact ⟨hlt', by simp [hnot', hdiffers], hintact⟩
  · rw [hreleases] at hmem
    rw [hnext]
    rcases List.mem_append.mp hmem with hmem | hmem
    · exact h.named id hmem
    · obtain rfl := List.mem_singleton.mp hmem
      exact hlt
  · rw [hreleases]
    exact List.nodup_append_comm.mp (List.nodup_cons.mpr ⟨hnot, h.once⟩)

end LightRocm.Memory
