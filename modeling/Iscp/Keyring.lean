import Iscp.Crypto

/-!
# The key ring

The signing keys of a server, each next, active, retired or revoked. The ring is a Go map
whose entries are listed one after the other, in an order Go does not fix: the key
`Iscp.Keyring.Ring.active` returns is one of the active ones, which one the environment
chooses.
-/

namespace Iscp

namespace Keyring

open Go Crypto

/-- The states of a key. -/
inductive KeyState where
  | next
  | active
  | retired
  | revoked
  deriving DecidableEq

/-- **A key.** -/
structure Key where
  id : Str
  state : KeyState
  priv : Ed25519PrivateKey
  pub : Ed25519PublicKey

/-- **The ring**: the keys, each under its identifier. -/
abbrev Ring := List (Str × Key)

namespace Ring

/-- `r.keys[id] = key`. -/
def set (r : Ring) (id : Str) (key : Key) : Ring := r.filter (fun e => e.1 ≠ id) ++ [(id, key)]

/-- `Add`. -/
def add (r : Ring) (key : Key) : Ring := r.set key.id key

/-- The keys that are active. -/
def activeKeys (r : Ring) : List Key := (r.map Prod.snd).filter fun key => key.state = .active

/-- `Active`, the active keys being listed from the chosen one on. -/
def active (r : Ring) (choice : ℕ) : Except Error Key :=
  match r.activeKeys[choice % r.activeKeys.length]? with
  | some key => .ok key
  | none => .error (.new .keyInvalid (lit "active signing key not found"))

/-- `Get`. -/
def get (r : Ring) (id : Str) : Except Error Key :=
  match r.lookup id with
  | none => .error (.new .keyInvalid (lit "signing key not found"))
  | some key =>
    if key.state = .revoked then .error (.new .keyInvalid (lit "signing key not found"))
    else .ok key

/-- An active key is retired, any other stays as it is. -/
def retire (key : Key) : Key := if key.state = .active then { key with state := .retired } else key

/-- `Rotate`. -/
def rotate (r : Ring) (nextID : Str) : Except Error Ring :=
  match r.lookup nextID with
  | none => .error (.new .keyInvalid (lit "next key not found"))
  | some next =>
    if next.state ≠ .next then .error (.new .keyInvalid (lit "next key not found"))
    else .ok (set (r.map fun e => (e.1, retire e.2)) nextID { next with state := .active })

/-! ### The entries of a ring -/

variable {key : Key} {nextID : Str}

theorem mem_set {r : Ring} {id : Str} {e : Str × Key} :
    e ∈ r.set id key ↔ (e ∈ r ∧ e.1 ≠ id) ∨ e = (id, key) := by
  simp [set]

theorem lookup_set_self (r : Ring) (id : Str) (key : Key) :
    (r.set id key).lookup id = some key := by
  rw [set]
  induction r with
  | nil => simp
  | cons e r ih =>
    rw [List.filter_cons]
    split_ifs with he
    · rw [List.cons_append, List.lookup_cons]
      rw [decide_eq_true_eq] at he
      simpa [beq_eq_false_iff_ne.mpr (Ne.symm he)] using ih
    · exact ih

theorem lookup_set_of_ne (r : Ring) {id id' : Str} (h : id' ≠ id) (key : Key) :
    (r.set id key).lookup id' = r.lookup id' := by
  rw [set]
  induction r with
  | nil => simp [List.lookup_cons, beq_eq_false_iff_ne.mpr h]
  | cons e r ih =>
    obtain ⟨k, v⟩ := e
    rw [List.filter_cons]
    split_ifs with he
    · rw [List.cons_append, List.lookup_cons, List.lookup_cons, ih]
    · obtain rfl : k = id := by simpa using he
      rw [ih, List.lookup_cons, beq_eq_false_iff_ne.mpr h]

theorem active_eq_ok {r : Ring} {choice : ℕ} (h : r.active choice = .ok key) :
    key.state = .active ∧ ∃ id, (id, key) ∈ r := by
  unfold active at h
  split at h
  · next key' hkey =>
    cases h
    obtain ⟨hmem, hstate⟩ := List.mem_filter.mp (List.mem_of_getElem? hkey)
    obtain ⟨⟨id, _⟩, he, rfl⟩ := List.mem_map.mp hmem
    exact ⟨of_decide_eq_true hstate, id, he⟩
  · cases h

/-- **A ring of keys as they are made**: each under the thumbprint of its public key, the
private key belonging to it, none of them revoked. -/
def Made (P : Primitives) (r : Ring) : Prop :=
  ∀ id key, (id, key) ∈ r → key.id = id ∧ KeyPair P key.priv key.pub ∧
    id = thumbprint P (lit "Ed25519") key.pub.key ∧ key.state ≠ .revoked

variable {P : Primitives} {r r' : Ring} {id : Str}

theorem Made.set (h : r.Made P) (hkey : key.id = id) (hpair : KeyPair P key.priv key.pub)
    (hid : id = thumbprint P (lit "Ed25519") key.pub.key) (hstate : key.state ≠ .revoked) :
    (r.set id key).Made P := by
  intro id' key' hmem
  rcases mem_set.mp hmem with ⟨hmem, -⟩ | heq
  · exact h id' key' hmem
  · cases heq
    exact ⟨hkey, hpair, hid, hstate⟩

theorem retire_id (key : Key) : (retire key).id = key.id := by
  rw [retire]
  split_ifs <;> rfl

theorem retire_state (h : key.state ≠ .revoked) : (retire key).state ≠ .revoked := by
  rw [retire]
  split_ifs
  · exact nofun
  · exact h

theorem retire_priv (key : Key) : (retire key).priv = key.priv := by
  rw [retire]
  split_ifs <;> rfl

theorem retire_pub (key : Key) : (retire key).pub = key.pub := by
  rw [retire]
  split_ifs <;> rfl

theorem mem_of_lookup (h : r.lookup id = some key) : (id, key) ∈ r := by
  obtain ⟨l₁, l₂, rfl, -⟩ := List.lookup_eq_some_iff.mp h
  simp

theorem lookup_isSome_of_mem (h : (id, key) ∈ r) : (r.lookup id).isSome :=
  List.lookup_isSome_iff.mpr ⟨_, h, beq_self_eq_true id⟩

/-- **What `rotate` does**: the next key becomes the active one, the active ones are retired. -/
theorem rotate_eq_ok_iff : r.rotate nextID = .ok r' ↔
    ∃ next, r.lookup nextID = some next ∧ next.state = .next ∧
      r' = set (r.map fun e => (e.1, retire e.2)) nextID { next with state := .active } := by
  unfold rotate
  split
  · next hnone => simp [hnone]
  · next next hnext =>
    simp only [hnext, Option.some.injEq, exists_eq_left', ite_not]
    split_ifs with hstate
    · simp [hstate, eq_comm]
    · simp [hstate]

theorem rotate_eq_ok (h : r.rotate nextID = .ok r') :
    ∃ next, (nextID, next) ∈ r ∧ next.state = .next ∧
      r' = set (r.map fun e => (e.1, retire e.2)) nextID { next with state := .active } := by
  obtain ⟨next, hnext, hstate, hr⟩ := rotate_eq_ok_iff.mp h
  exact ⟨next, mem_of_lookup hnext, hstate, hr⟩

theorem Made.rotate (h : r.Made P) (hr : r.rotate nextID = .ok r') : r'.Made P := by
  obtain ⟨next, hnext, -, rfl⟩ := rotate_eq_ok hr
  obtain ⟨hkey, hpair, hid, -⟩ := h nextID next hnext
  refine Made.set ?_ hkey hpair hid nofun
  intro id' key' hmem
  obtain ⟨⟨id, key⟩, hkey, heq⟩ := List.mem_map.mp hmem
  cases heq
  obtain ⟨hkey, hpair, hid, hstate⟩ := h id key hkey
  rw [retire_id, retire_priv, retire_pub]
  exact ⟨hkey, hpair, hid, retire_state hstate⟩

theorem lookup_isSome_set {id' : Str} (key : Key) (h : (r.lookup id).isSome) :
    ((r.set id' key).lookup id).isSome := by
  rcases eq_or_ne id id' with rfl | hne
  · rw [lookup_set_self]
    rfl
  · rwa [lookup_set_of_ne r hne]

theorem lookup_isSome_rotate (hr : r.rotate nextID = .ok r') (h : (r.lookup id).isSome) :
    (r'.lookup id).isSome := by
  obtain ⟨next, -, -, rfl⟩ := rotate_eq_ok hr
  refine lookup_isSome_set _ ?_
  obtain ⟨⟨id', key⟩, hkey, hid⟩ := List.lookup_isSome_iff.mp h
  exact List.lookup_isSome_iff.mpr ⟨_, List.mem_map.mpr ⟨_, hkey, rfl⟩, hid⟩

theorem Made.get (h : r.Made P) (hid : (r.lookup id).isSome) :
    ∃ key, r.get id = .ok key ∧ KeyPair P key.priv key.pub ∧
      id = thumbprint P (lit "Ed25519") key.pub.key := by
  obtain ⟨key, hkey⟩ := Option.isSome_iff_exists.mp hid
  obtain ⟨-, hpair, hthumb, hstate⟩ := h id key (mem_of_lookup hkey)
  refine ⟨key, ?_, hpair, hthumb⟩
  rw [Ring.get, hkey]
  exact if_neg hstate

/-! ### Distinct identifiers -/

/-- **No two entries have the same identifier**, as in any map. -/
def Distinct (r : Ring) : Prop := (r.map Prod.fst).Nodup

theorem Distinct.set (h : r.Distinct) (id : Str) (key : Key) : (r.set id key).Distinct := by
  rw [Distinct, Ring.set, List.map_append, List.nodup_append]
  refine ⟨h.sublist (List.filter_sublist.map _), by simp, ?_⟩
  rintro _ hid _ hid' rfl
  obtain ⟨e, he, rfl⟩ := List.mem_map.mp hid
  exact of_decide_eq_true (List.mem_filter.mp he).2 (by simpa using hid')

theorem Distinct.rotate (h : r.Distinct) (hr : r.rotate nextID = .ok r') : r'.Distinct := by
  obtain ⟨next, -, -, rfl⟩ := rotate_eq_ok_iff.mp hr
  refine Distinct.set ?_ nextID _
  rwa [Distinct, List.map_map]

theorem Distinct.lookup (h : r.Distinct) (hmem : (id, key) ∈ r) : r.lookup id = some key := by
  induction r with
  | nil => cases hmem
  | cons e r ih =>
    obtain ⟨hnot, hr⟩ := List.nodup_cons.mp h
    rw [List.lookup_cons]
    rcases List.mem_cons.mp hmem with rfl | hmem
    · simp
    · have hne : (id == e.1) = false :=
        beq_eq_false_iff_ne.mpr fun heq => hnot (heq ▸ List.mem_map_of_mem (f := Prod.fst) hmem)
      rw [hne]
      exact ih hr hmem

/-! ### Adding and rotating -/

theorem add_of_lookup_eq_none (h : r.lookup key.id = none) : r.add key = r ++ [(key.id, key)] := by
  rw [add, set, List.filter_eq_self.mpr]
  intro e he
  refine decide_eq_true fun heq => ?_
  rw [List.lookup_eq_none_iff] at h
  exact absurd (beq_iff_eq.mpr heq.symm) (by simpa using h e he)

theorem activeKeys_append (r r' : Ring) :
    activeKeys (r ++ r') = activeKeys r ++ activeKeys r' := by
  simp [activeKeys]

/-- **The active keys after an entry is set**, each being entered under its own identifier. -/
theorem activeKeys_set (h : r.Made P) (id : Str) (key : Key) :
    (r.set id key).activeKeys =
      r.activeKeys.filter (fun k => k.id ≠ id) ++ if key.state = .active then [key] else [] := by
  have hfilter : activeKeys (r.filter fun e => e.1 ≠ id) =
      r.activeKeys.filter (fun k => k.id ≠ id) := by
    rw [activeKeys, activeKeys, List.filter_filter, List.filter_map, List.filter_map,
      List.filter_filter]
    congr 1
    refine List.filter_congr fun e he => ?_
    obtain ⟨hid, -⟩ := h e.1 e.2 he
    simp [hid, Bool.and_comm]
  rw [set, activeKeys_append, hfilter]
  congr 1
  rw [activeKeys]
  split_ifs with hstate <;> simp [hstate]

theorem activeKeys_add (h : r.lookup key.id = none) (hstate : key.state = .next) :
    (r.add key).activeKeys = r.activeKeys := by
  rw [add_of_lookup_eq_none h, activeKeys_append]
  simp [activeKeys, hstate]

theorem retire_state_ne (key : Key) : (retire key).state ≠ .active := by
  rw [retire]
  split_ifs with h
  · exact nofun
  · exact h

theorem activeKeys_rotate_eq (r : Ring) (nextID : Str) (next : Key) :
    activeKeys (set (r.map fun e => (e.1, retire e.2)) nextID { next with state := .active }) =
      [{ next with state := .active }] := by
  have hnone :
      activeKeys ((r.map fun e => (e.1, retire e.2)).filter fun e => e.1 ≠ nextID) = [] := by
    rw [activeKeys, List.filter_eq_nil_iff]
    intro key hkey
    obtain ⟨_, he, rfl⟩ := List.mem_map.mp hkey
    obtain ⟨e, -, rfl⟩ := List.mem_map.mp (List.mem_filter.mp he).1
    simpa using retire_state_ne e.2
  rw [set, activeKeys_append, hnone]
  rfl

/-- **After a rotation one key is active.** -/
theorem activeKeys_rotate (hr : r.rotate nextID = .ok r') : ∃ key, r'.activeKeys = [key] := by
  obtain ⟨next, -, -, rfl⟩ := rotate_eq_ok_iff.mp hr
  exact ⟨_, activeKeys_rotate_eq r nextID next⟩

theorem lookup_map_retire (r : Ring) (id : Str) :
    (r.map fun e => (e.1, retire e.2)).lookup id = (r.lookup id).map retire := by
  induction r with
  | nil => rfl
  | cons e r ih =>
    rw [List.map_cons, List.lookup_cons, List.lookup_cons, ih]
    cases id == e.1 <;> rfl

theorem lookup_rotate_of_ne (hr : r.rotate nextID = .ok r') (h : id ≠ nextID) :
    r'.lookup id = (r.lookup id).map retire := by
  obtain ⟨next, -, -, rfl⟩ := rotate_eq_ok_iff.mp hr
  rw [lookup_set_of_ne _ h, lookup_map_retire]

theorem lookup_rotate_self (hr : r.rotate nextID = .ok r') : ∃ next,
    r.lookup nextID = some next ∧ next.state = .next ∧
      r'.lookup nextID = some { next with state := .active } := by
  obtain ⟨next, hnext, hstate, rfl⟩ := rotate_eq_ok_iff.mp hr
  exact ⟨next, hnext, hstate, lookup_set_self ..⟩

/-! ### What becomes of a key -/

/-- **What becomes of a key**: it is the same pair, and once retired it stays retired. -/
structure Ages (key key' : Key) : Prop where
  id : key'.id = key.id
  priv : key'.priv = key.priv
  pub : key'.pub = key.pub
  retired : key.state = .retired → key'.state = .retired

theorem Ages.refl (key : Key) : Ages key key := ⟨rfl, rfl, rfl, fun h => h⟩

theorem Ages.trans {key₁ key₂ key₃ : Key} (h : Ages key₁ key₂) (h' : Ages key₂ key₃) :
    Ages key₁ key₃ :=
  ⟨h'.id.trans h.id, h'.priv.trans h.priv, h'.pub.trans h.pub, fun hk => h'.retired (h.retired hk)⟩

theorem ages_retire (key : Key) : Ages key (retire key) := by
  refine ⟨retire_id key, retire_priv key, retire_pub key, fun h => ?_⟩
  rw [retire, if_neg (by rw [h]; decide)]
  exact h

theorem lookup_add_of_fresh {new : Key} (hnew : r.lookup new.id = none)
    (h : r.lookup id = some key) : (r.add new).lookup id = some key := by
  rw [add, lookup_set_of_ne r ?_, h]
  rintro rfl
  rw [hnew] at h
  cases h

theorem lookup_rotate_ages (hr : r.rotate nextID = .ok r') (h : r.lookup id = some key) :
    ∃ key', r'.lookup id = some key' ∧ Ages key key' := by
  rcases eq_or_ne id nextID with rfl | hne
  · obtain ⟨next, hnext, hstate, hnew⟩ := lookup_rotate_self hr
    obtain rfl := Option.some.inj (h.symm.trans hnext)
    exact ⟨_, hnew, rfl, rfl, rfl, fun hretired => absurd (hretired.symm.trans hstate) (by decide)⟩
  · refine ⟨retire key, ?_, ages_retire key⟩
    rw [lookup_rotate_of_ne hr hne, h]
    rfl

end Ring

end Keyring

end Iscp
