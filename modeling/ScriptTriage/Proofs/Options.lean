import Mathlib.Data.List.Nodup
import ScriptTriage.Proofs.Command
import ScriptTriage.Proofs.Yaml

/-
What a document and the flags of a command make of the settings.

A document presents entries, each a key and a scalar. `Acceptable entries` and `Given entries o` say, without taking the
entries in turn, which entries can be loaded and what they give; both look at nothing but which entries there are.

- `ofEntries_eq_ok_iff`: taking the entries in turn, behind others, gives what all of them give together; the settings
  seen so far are those that no later entry may name.
- `load_eq_ok_iff`: so a document gives settings exactly if its entries are acceptable and give these.
- `loadOptions_eq_ok_iff_override`: a command puts its flags on top, and refuses nothing but a zero.
- `settings_of_document_and_flags`: so acceptable entries load the same in every order, no others load, and a command
  gets settings exactly if its document is accepted on its own and its flag is not zero.
-/

namespace ScriptTriage

/-! ## Entries -/

namespace Yaml

/-- the key and the scalar of an entry, if it has them -/
def Entry.pair? (e : Entry) : Option (String × Scalar) :=
  match e.key.content, e.value with
  | .scalar key, .ok ⟨.scalar s, _⟩ => some (key.text, s)
  | _, _ => none

/-- the entries that a document presents: those of its top, if nothing else is there -/
def Document.pairs? (d : Document) : Option (List (String × Scalar)) :=
  if d.fault.isSome || d.hasMore then none
  else
    match d.root with
    | .ok .empty => some []
    | .ok (.mapping _ entries) => entries.mapM Entry.pair?
    | _ => none

theorem Entry.pair?_eq_some_iff (e : Entry) (key : String) (s : Scalar) :
    e.pair? = some (key, s) ↔
      (∃ k, e.key.content = .scalar k ∧ k.text = key) ∧ ∃ v, e.value = .ok v ∧ v.content = .scalar s := by
  obtain ⟨⟨content, mark⟩, value⟩ := e
  unfold Entry.pair?
  constructor
  · intro h
    split at h
    · rename_i k s' mark' hkey hvalue
      cases h
      exact ⟨⟨k, hkey, rfl⟩, _, hvalue, rfl⟩
    · cases h
  · rintro ⟨⟨k, hkey, rfl⟩, ⟨content', mark'⟩, hvalue, hcontent⟩
    cases hkey
    cases hvalue
    cases hcontent
    rfl

/-- an entry of a key and a scalar, wherever it stands -/
def Entry.ofPair (p : String × Scalar) : Entry :=
  { key := ⟨.scalar ⟨p.1, .plain, none⟩, .origin⟩, value := .ok ⟨.scalar p.2, .origin⟩ }

/-- a document that presents just these entries -/
def Document.ofPairs (entries : List (String × Scalar)) : Document :=
  { root := .ok (.mapping .origin (entries.map Entry.ofPair)) }

theorem Entry.mapM_pair?_ofPair (entries : List (String × Scalar)) :
    (entries.map ofPair).mapM pair? = some entries := by
  induction entries with
  | nil => rfl
  | cons p entries ih =>
    rw [List.map_cons, List.mapM_cons, ih]
    rfl

theorem Document.pairs?_ofPairs (entries : List (String × Scalar)) : (ofPairs entries).pairs? = some entries :=
  Entry.mapM_pair?_ofPair entries

end Yaml

open Yaml (Scalar Entry Document)

/-! ## Acceptable entries -/

/-- what entries that can be loaded look like -/
structure Acceptable (entries : List (String × Scalar)) : Prop where
  known : ∀ key ∈ entries.map Prod.fst, key ∈ ["shellcode_min_length", "max_depth", "reject_syntax_errors"]
  once : (entries.map Prod.fst).Nodup
  leastLength : ∀ s, ("shellcode_min_length", s) ∈ entries → ∃ n, (1 ≤ n ∧ n < Nat.pow 2 64) ∧ s.CarriesNat n
  maxDepth : ∀ s, ("max_depth", s) ∈ entries → ∃ n, (1 ≤ n ∧ n < Nat.pow 2 64) ∧ s.CarriesNat n
  strict : ∀ s, ("reject_syntax_errors", s) ∈ entries → ∃ b, s.CarriesBool b

/-- the value that an entry gives to a key, or else its default -/
structure GivenBy {α : Type} (entries : List (String × Scalar)) (key : String) (Carries : Scalar → α → Prop)
    (default value : α) : Prop where
  given : ∀ s, (key, s) ∈ entries → Carries s value
  left_out : key ∉ entries.map Prod.fst → value = default

/-- each setting is what its entry gives, or else its default -/
structure Options.Given (entries : List (String × Scalar)) (o : Options) : Prop where
  leastLength : GivenBy entries "shellcode_min_length" Scalar.CarriesNat 32 o.leastLength
  maxDepth : GivenBy entries "max_depth" Scalar.CarriesNat 500 o.maxDepth
  strict : GivenBy entries "reject_syntax_errors" Scalar.CarriesBool false o.strict

theorem exists_givenBy {α : Type} {entries : List (String × Scalar)} (honce : (entries.map Prod.fst).Nodup)
    {key : String} {Carries : Scalar → α → Prop} (hcarries : ∀ s, (key, s) ∈ entries → ∃ value, Carries s value)
    (default : α) : ∃ value, GivenBy entries key Carries default value := by
  by_cases hkey : ∃ s, (key, s) ∈ entries
  · obtain ⟨s, hs⟩ := hkey
    obtain ⟨value, hvalue⟩ := hcarries s hs
    refine ⟨value, ?_, fun hout => absurd (List.mem_map_of_mem hs) hout⟩
    -- the key occurs once, so this is its only scalar
    intro s' hs'
    cases List.inj_on_of_nodup_map honce hs' hs rfl
    exact hvalue
  · exact ⟨default, fun s hs => absurd ⟨s, hs⟩ hkey, fun _ => rfl⟩

theorem GivenBy.range {entries : List (String × Scalar)} {key : String} {default value : Nat}
    (h : GivenBy entries key Scalar.CarriesNat default value) (hdefault : 1 ≤ default ∧ default < Nat.pow 2 64)
    (hcarries : ∀ s, (key, s) ∈ entries → ∃ n, (1 ≤ n ∧ n < Nat.pow 2 64) ∧ s.CarriesNat n) :
    1 ≤ value ∧ value < Nat.pow 2 64 := by
  by_cases hkey : key ∈ entries.map Prod.fst
  · obtain ⟨⟨_, s⟩, hs, rfl⟩ := List.mem_map.1 hkey
    obtain ⟨n, hn, hcarries⟩ := hcarries s hs
    rw [(h.given s hs).unique hcarries]
    exact hn
  · rw [h.left_out hkey]
    exact hdefault

/-! ## One setting -/

namespace Setting

/-- the scalar carries the value of the setting in `o`, and it fits -/
def Carries (field : Setting) (s : Scalar) (o : Options) : Prop :=
  match field with
  | .leastLength => s.CarriesNat o.leastLength ∧ o.leastLength < Nat.pow 2 64
  | .maxDepth => s.CarriesNat o.maxDepth ∧ o.maxDepth < Nat.pow 2 64
  | .strict => s.CarriesBool o.strict

def Agree (field : Setting) (o o' : Options) : Prop :=
  match field with
  | .leastLength => o.leastLength = o'.leastLength
  | .maxDepth => o.maxDepth = o'.maxDepth
  | .strict => o.strict = o'.strict

/-- `o` with the setting of `o'` -/
def update (field : Setting) (o o' : Options) : Options :=
  match field with
  | .leastLength => { o with leastLength := o'.leastLength }
  | .maxDepth => { o with maxDepth := o'.maxDepth }
  | .strict => { o with strict := o'.strict }

theorem name_injective : Function.Injective name := by
  intro f g h
  cases f <;> cases g <;> first | rfl | exact absurd h (by decide)

theorem name_mem (field : Setting) :
    field.name ∈ ["shellcode_min_length", "max_depth", "reject_syntax_errors"] := by
  cases field <;> decide

theorem exists_name {key : String} (h : key ∈ ["shellcode_min_length", "max_depth", "reject_syntax_errors"]) :
    ∃ field : Setting, field.name = key := by
  simp only [List.mem_cons, List.not_mem_nil, or_false] at h
  rcases h with rfl | rfl | rfl
  · exact ⟨.leastLength, rfl⟩
  · exact ⟨.maxDepth, rfl⟩
  · exact ⟨.strict, rfl⟩

theorem ofName?_name (field : Setting) : ofName? field.name = some field := by
  cases field <;> decide

theorem name_of_ofName? {key : String} {field : Setting} (h : ofName? key = some field) : field.name = key := by
  simpa using List.find?_some h

theorem Agree.symm {field : Setting} {o o' : Options} (h : field.Agree o o') : field.Agree o' o := by
  cases field <;> exact Eq.symm h

theorem Agree.trans {field : Setting} {o₁ o₂ o₃ : Options} (h : field.Agree o₁ o₂) (h' : field.Agree o₂ o₃) :
    field.Agree o₁ o₃ := by
  cases field <;> exact Eq.trans h h'

theorem Carries.of_agree {field : Setting} {s : Scalar} {o o' : Options} (h : field.Carries s o)
    (hagree : field.Agree o o') : field.Carries s o' := by
  cases field <;> (unfold Carries Agree at *; rw [← hagree]; exact h)

theorem eq_of_agree {o o' : Options} (h : ∀ field : Setting, field.Agree o o') : o = o' := by
  obtain ⟨leastLength, maxDepth, strict⟩ := o
  cases (h .leastLength : leastLength = _)
  cases (h .maxDepth : maxDepth = _)
  cases (h .strict : strict = _)
  rfl

theorem agree_update (field : Setting) (o o' : Options) : field.Agree o' (field.update o o') := by
  cases field <;> rfl

theorem update_agree (field : Setting) (o o' : Options) : field.Agree (field.update o o') o' := by
  cases field <;> rfl

theorem update_update (field : Setting) (o o' : Options) :
    field.update o (field.update o o') = field.update o o' := by
  cases field <;> rfl

theorem agree_update_of_ne {field other : Setting} (h : other ≠ field) (o o' : Options) :
    other.Agree o (field.update o o') := by
  cases field <;> cases other <;> first | rfl | exact absurd rfl h

end Setting

namespace Options

/-- what is read is taken over, and told if it cannot be read -/
theorem elim_eq_ok_iff {α : Type} (read : Option α) (set : α → Options) (get : Options → α) (hget : ∀ a, get (set a) = a)
    (refused : LoadFault) (o' : Options) :
    read.elim (Except.error refused) (fun a => .ok (set a)) = .ok o' ↔ read = some (get o') ∧ o' = set (get o') := by
  cases read with
  | none => simp
  | some a =>
    constructor
    · intro h
      cases h
      exact ⟨congrArg some (hget a).symm, congrArg set (hget a).symm⟩
    · rintro ⟨ha, ho⟩
      cases ha
      exact congrArg Except.ok ho.symm

theorem assign_leastLength (o : Options) (v : Yaml.Value) :
    o.assign .leastLength v =
      v.toNat?.elim (.error (.valueType .leastLength v.meaning v.mark)) fun n => .ok { o with leastLength := n } := by
  unfold assign
  cases v.toNat? <;> rfl

theorem assign_maxDepth (o : Options) (v : Yaml.Value) :
    o.assign .maxDepth v =
      v.toNat?.elim (.error (.valueType .maxDepth v.meaning v.mark)) fun n => .ok { o with maxDepth := n } := by
  unfold assign
  cases v.toNat? <;> rfl

theorem assign_strict (o : Options) (v : Yaml.Value) :
    o.assign .strict v =
      v.toBool?.elim (.error (.valueType .strict v.meaning v.mark)) fun b => .ok { o with strict := b } := by
  unfold assign
  cases v.toBool? <;> rfl

/-- a setting is changed to what the scalar carries, and the others stay -/
theorem assign_eq_ok_iff {v : Yaml.Value} {s : Scalar} (hv : v.content = .scalar s) (field : Setting) (o o' : Options) :
    o.assign field v = .ok o' ↔ field.Carries s o' ∧ o' = field.update o o' := by
  cases field with
  | leastLength =>
    rw [assign_leastLength, elim_eq_ok_iff _ _ leastLength fun _ => rfl, Yaml.toNat?_scalar hv]
    rfl
  | maxDepth =>
    rw [assign_maxDepth, elim_eq_ok_iff _ _ maxDepth fun _ => rfl, Yaml.toNat?_scalar hv]
    rfl
  | strict =>
    rw [assign_strict, elim_eq_ok_iff _ _ strict fun _ => rfl, Yaml.toBool?_scalar hv]
    rfl

/-! ## A run over the entries -/

/-- the entries name settings that were not seen before, each once, and turn `o` into `o'` -/
structure Gives (seen : List Setting) (entries : List (String × Scalar)) (o o' : Options) : Prop where
  named : ∀ p ∈ entries, ∃ field : Setting, field.name = p.1 ∧ field ∉ seen ∧ field.Carries p.2 o'
  once : (entries.map Prod.fst).Nodup
  kept : ∀ field : Setting, field.name ∉ entries.map Prod.fst → field.Agree o o'

theorem gives_nil_iff (seen : List Setting) (o o' : Options) : Gives seen [] o o' ↔ o = o' := by
  constructor
  · intro h
    exact Setting.eq_of_agree fun field => h.kept field (by simp)
  · rintro rfl
    exact ⟨by simp, by simp, fun field _ => by cases field <;> rfl⟩

/-- one entry: its setting is new and changed, and the rest goes on from there -/
theorem gives_cons_iff (seen : List Setting) (key : String) (s : Scalar) (entries : List (String × Scalar))
    (o o' : Options) :
    Gives seen ((key, s) :: entries) o o' ↔
      ∃ field : Setting, field.name = key ∧ field ∉ seen ∧
        ∃ o₁, (field.Carries s o₁ ∧ o₁ = field.update o o₁) ∧ Gives (field :: seen) entries o₁ o' := by
  constructor
  · intro h
    obtain ⟨field, rfl, hseen, hcarries⟩ := h.named (key, s) List.mem_cons_self
    obtain ⟨hnot, honce⟩ := List.nodup_cons.1 h.once
    refine ⟨field, rfl, hseen, field.update o o', ⟨?_, ?_⟩, ?_, honce, ?_⟩
    · exact hcarries.of_agree (field.agree_update o o')
    · exact (field.update_update o o').symm
    · intro p hp
      obtain ⟨other, hname, hother, hp'⟩ := h.named p (List.mem_cons_of_mem _ hp)
      refine ⟨other, hname, ?_, hp'⟩
      intro hmem
      rcases List.mem_cons.1 hmem with rfl | hmem
      · exact hnot (List.mem_map.2 ⟨p, hp, hname.symm⟩)
      · exact hother hmem
    · intro other hother
      by_cases hne : other = field
      · rw [hne]
        exact field.update_agree o o'
      · have hkept : other.Agree o o' := by
          apply h.kept other
          intro hmem
          rcases List.mem_cons.1 hmem with hname | hmem
          · exact hne (Setting.name_injective hname)
          · exact hother hmem
        exact (Setting.agree_update_of_ne hne o o').symm.trans hkept
  · rintro ⟨field, rfl, hseen, o₁, ⟨hcarries, ho₁⟩, h⟩
    have hnot : field.name ∉ entries.map Prod.fst := by
      intro hmem
      obtain ⟨p, hp, hname⟩ := List.mem_map.1 hmem
      obtain ⟨other, hother, hseen', -⟩ := h.named p hp
      exact hseen' (Setting.name_injective (hother.trans hname) ▸ List.mem_cons_self)
    refine ⟨?_, List.nodup_cons.2 ⟨hnot, h.once⟩, ?_⟩
    · intro p hp
      rcases List.mem_cons.1 hp with rfl | hp
      · exact ⟨field, rfl, hseen, hcarries.of_agree (h.kept field hnot)⟩
      · obtain ⟨other, hname, hother, hp'⟩ := h.named p hp
        exact ⟨other, hname, fun hmem => hother (List.mem_cons_of_mem _ hmem), hp'⟩
    · intro other hother
      have hne : other ≠ field := by
        rintro rfl
        exact hother List.mem_cons_self
      have hagree := Setting.agree_update_of_ne hne o o₁
      rw [← ho₁] at hagree
      exact hagree.trans (h.kept other fun hmem => hother (List.mem_cons_of_mem _ hmem))

theorem settingOf_eq_ok_iff {key : Yaml.Value} {k : Scalar} (hkey : key.content = .scalar k) (field : Setting) :
    settingOf key = .ok field ↔ field.name = k.text := by
  simp only [settingOf, hkey]
  constructor
  · intro h
    split at h
    · rename_i found hfound
      cases h
      exact Setting.name_of_ofName? hfound
    · cases h
  · intro h
    simp only [← h, Setting.ofName?_name]

theorem ofEntries_cons_eq_ok_iff (mark : Yaml.Mark) (seen : List Setting) (o o' : Options) {e : Entry}
    {es : List Entry} {key : String} {s : Scalar} (he : e.pair? = some (key, s)) :
    ofEntries mark seen o (e :: es) = .ok o' ↔
      ∃ field : Setting, field.name = key ∧ field ∉ seen ∧
        ∃ o₁, (field.Carries s o₁ ∧ o₁ = field.update o o₁) ∧ ofEntries mark (field :: seen) o₁ es = .ok o' := by
  obtain ⟨⟨k, hkey, rfl⟩, v, hvalue, hv⟩ := (Entry.pair?_eq_some_iff e key s).1 he
  constructor
  · intro h
    rw [ofEntries] at h
    split at h
    · cases h
    · rename_i field hfield
      split at h
      · cases h
      · rename_i hseen
        simp only [hvalue] at h
        split at h
        · cases h
        · rename_i o₁ ho₁
          exact ⟨field, (settingOf_eq_ok_iff hkey field).1 hfield, by simpa using hseen, o₁,
            (assign_eq_ok_iff hv field o o₁).1 ho₁, h⟩
  · rintro ⟨field, hname, hseen, o₁, ho₁, h⟩
    have hfield := (settingOf_eq_ok_iff hkey field).2 hname
    have hassign := (assign_eq_ok_iff hv field o o₁).2 ho₁
    rw [ofEntries]
    simp only [hfield, hvalue, hassign]
    rw [if_neg (by simpa using hseen)]
    exact h

/-- taking the entries in turn gives what they give together -/
theorem ofEntries_eq_ok_iff (mark : Yaml.Mark) (seen : List Setting) (o o' : Options) {es : List Entry}
    {entries : List (String × Scalar)} (hes : es.mapM Entry.pair? = some entries) :
    ofEntries mark seen o es = .ok o' ↔ Gives seen entries o o' := by
  induction es generalizing entries seen o with
  | nil =>
    rw [List.mapM_nil] at hes
    cases hes
    rw [gives_nil_iff, ofEntries, Except.ok.injEq]
  | cons e es ih =>
    rw [List.mapM_cons] at hes
    obtain ⟨⟨key, s⟩, he, hrest⟩ := Option.bind_eq_some_iff.1 hes
    obtain ⟨rest, hes', hentries⟩ := Option.bind_eq_some_iff.1 hrest
    cases hentries
    rw [ofEntries_cons_eq_ok_iff mark seen o o' he, gives_cons_iff]
    simp only [ih _ _ hes']

/-! ## Documents -/

theorem ofDocument_eq_ok_iff {d : Document} {entries : List (String × Scalar)} (h : d.pairs? = some entries)
    (o : Options) : ofDocument d = .ok o ↔ Gives [] entries {} o := by
  obtain ⟨root, fault, hasMore⟩ := d
  unfold Document.pairs? at h
  split at h
  · cases h
  · rename_i hwhole
    obtain ⟨hfault, hmore⟩ : fault = none ∧ hasMore = false := by simpa using hwhole
    subst hfault hmore
    split at h
    · rename_i hroot
      cases h
      cases hroot
      have hdocument : ofDocument ⟨.ok .empty, none, false⟩ = .ok {} := rfl
      rw [hdocument, gives_nil_iff, Except.ok.injEq]
    · rename_i mark es hroot
      cases hroot
      rw [← ofEntries_eq_ok_iff mark [] {} o h]
      have hdocument : ofDocument ⟨.ok (.mapping mark es), none, false⟩ = ofEntries mark [] {} es := by
        simp only [ofDocument, ofRoot]
        cases ofEntries mark [] {} es <;> rfl
      rw [hdocument]
    · cases h

/-- what entries give is valid exactly if they are acceptable -/
theorem gives_and_valid_iff (entries : List (String × Scalar)) (o : Options) :
    Gives [] entries {} o ∧ o.Valid ↔ Acceptable entries ∧ o.Given entries := by
  constructor
  · rintro ⟨h, hlength, hdepth⟩
    have hcarries : ∀ (field : Setting) (s : Scalar), (field.name, s) ∈ entries → field.Carries s o := by
      intro field s hs
      obtain ⟨found, hname, -, hfound⟩ := h.named _ hs
      rw [← Setting.name_injective hname]
      exact hfound
    refine ⟨⟨?_, h.once, ?_, ?_, ?_⟩, ⟨?_, ?_⟩, ⟨?_, ?_⟩, ?_, ?_⟩
    · intro key hkey
      obtain ⟨p, hp, rfl⟩ := List.mem_map.1 hkey
      obtain ⟨field, hname, -⟩ := h.named p hp
      rw [← hname]
      exact field.name_mem
    · intro s hs
      obtain ⟨hs, hlt⟩ := hcarries .leastLength s hs
      exact ⟨o.leastLength, ⟨hlength, hlt⟩, hs⟩
    · intro s hs
      obtain ⟨hs, hlt⟩ := hcarries .maxDepth s hs
      exact ⟨o.maxDepth, ⟨hdepth, hlt⟩, hs⟩
    · exact fun s hs => ⟨o.strict, hcarries .strict s hs⟩
    · exact fun s hs => (hcarries .leastLength s hs).1
    · exact fun hout => (h.kept .leastLength hout).symm
    · exact fun s hs => (hcarries .maxDepth s hs).1
    · exact fun hout => (h.kept .maxDepth hout).symm
    · exact hcarries .strict
    · exact fun hout => (h.kept .strict hout).symm
  · rintro ⟨haccept, hgiven⟩
    have hlength := hgiven.leastLength.range (by decide) haccept.leastLength
    have hdepth := hgiven.maxDepth.range (by decide) haccept.maxDepth
    refine ⟨⟨?_, haccept.once, ?_⟩, hlength.1, hdepth.1⟩
    · rintro ⟨key, s⟩ hp
      obtain ⟨field, rfl⟩ := Setting.exists_name (haccept.known key (List.mem_map_of_mem hp))
      refine ⟨field, rfl, List.not_mem_nil, ?_⟩
      cases field with
      | leastLength => exact ⟨hgiven.leastLength.given s hp, hlength.2⟩
      | maxDepth => exact ⟨hgiven.maxDepth.given s hp, hdepth.2⟩
      | strict => exact hgiven.strict.given s hp
    · intro field hout
      cases field with
      | leastLength => exact (hgiven.leastLength.left_out hout).symm
      | maxDepth => exact (hgiven.maxDepth.left_out hout).symm
      | strict => exact (hgiven.strict.left_out hout).symm

theorem load_eq_ok_iff {d : Document} {entries : List (String × Scalar)} (h : d.pairs? = some entries) (o : Options) :
    load d = .ok o ↔ Acceptable entries ∧ o.Given entries := by
  rw [← gives_and_valid_iff, ← ofDocument_eq_ok_iff h, ← fault?_eq_none_iff]
  unfold load
  cases hdocument : ofDocument d with
  | error fault => simp
  | ok o' =>
    constructor
    · intro hok
      dsimp only at hok
      split at hok
      · cases hok
      · rename_i hfault
        cases hok
        exact ⟨rfl, hfault⟩
    · rintro ⟨ho, hfault⟩
      cases ho
      simp only [hfault]

theorem exists_given {entries : List (String × Scalar)} (h : Acceptable entries) : ∃ o : Options, o.Given entries := by
  obtain ⟨leastLength, hlength⟩ :=
    exists_givenBy h.once (fun s hs => (h.leastLength s hs).imp fun _ hn => hn.2) 32
  obtain ⟨maxDepth, hdepth⟩ := exists_givenBy h.once (fun s hs => (h.maxDepth s hs).imp fun _ hn => hn.2) 500
  obtain ⟨strict, hstrict⟩ := exists_givenBy h.once h.strict false
  exact ⟨⟨leastLength, maxDepth, strict⟩, hlength, hdepth, hstrict⟩

theorem acceptable_of_perm {entries entries' : List (String × Scalar)} (h : entries'.Perm entries)
    (haccept : Acceptable entries) : Acceptable entries' where
  known key hkey := haccept.known key ((h.map Prod.fst).subset hkey)
  once := (h.map Prod.fst).nodup_iff.2 haccept.once
  leastLength s hs := haccept.leastLength s (h.subset hs)
  maxDepth s hs := haccept.maxDepth s (h.subset hs)
  strict s hs := haccept.strict s (h.subset hs)

theorem givenBy_of_perm {α : Type} {entries entries' : List (String × Scalar)} (h : entries'.Perm entries) {key : String}
    {Carries : Scalar → α → Prop} {default value : α} (hgiven : GivenBy entries key Carries default value) :
    GivenBy entries' key Carries default value where
  given s hs := hgiven.given s (h.subset hs)
  left_out hout := hgiven.left_out fun hmem => hout ((h.map Prod.fst).symm.subset hmem)

theorem given_of_perm {entries entries' : List (String × Scalar)} (h : entries'.Perm entries) {o : Options}
    (hgiven : o.Given entries) : o.Given entries' :=
  ⟨givenBy_of_perm h hgiven.leastLength, givenBy_of_perm h hgiven.maxDepth, givenBy_of_perm h hgiven.strict⟩

theorem exists_configuration (fault : LoadFault) : ∃ message, fault.failure = .configuration message := by
  cases fault <;> exact ⟨_, rfl⟩

theorem valid_of_load {d : Document} {o : Options} (h : load d = .ok o) : o.Valid := by
  unfold load at h
  split at h
  · cases h
  · split at h
    · cases h
    · rename_i hfault
      cases h
      exact (fault?_eq_none_iff _).1 hfault

end Options

/-! ## Flags -/

namespace Command

/-- the settings that a command starts from: the defaults, or those of the document that it names -/
inductive StartsFrom (files : FileSystem) (c : AnalyzeCommand) : Options → Prop where
  | defaults (h : c.config = none) : StartsFrom files c ⟨32, 500, false⟩
  | document {path text base} (h : c.config = some path) (hread : files.readText path = .ok text)
    (hload : Options.ofYaml text = .ok base) : StartsFrom files c base

theorem StartsFrom.valid {files : FileSystem} {c : AnalyzeCommand} {base : Options} (h : StartsFrom files c base) :
    base.Valid := by
  cases h with
  | defaults => decide
  | document _ _ hload => exact Options.valid_of_load hload

/-- settings with the flags of a command on top -/
def override (c : AnalyzeCommand) (base : Options) : Options :=
  { base with leastLength := c.leastLength.getD base.leastLength, strict := base.strict || c.strict }

theorem asks_iff (files : FileSystem) (c : AnalyzeCommand) (o : Options) :
    Asks files c o ↔ ∃ base, StartsFrom files c base ∧ o = override c base := by
  constructor
  · rintro ⟨base, hdefault, hfile, ho⟩
    refine ⟨base, ?_, ho⟩
    cases hconfig : c.config with
    | none =>
      cases hdefault hconfig
      exact .defaults hconfig
    | some path =>
      obtain ⟨text, hread, hload⟩ := hfile path hconfig
      exact .document hconfig hread hload
  · rintro ⟨base, hbase, ho⟩
    refine ⟨base, ?_, ?_, ho⟩
    · intro hnone
      cases hbase with
      | defaults => rfl
      | document hconfig => exact absurd (hnone.symm.trans hconfig) (by simp)
    · intro path hsome
      cases hbase with
      | defaults hconfig => exact absurd (hconfig.symm.trans hsome) (by simp)
      | document hconfig hread hload =>
        cases Option.some.inj (hconfig.symm.trans hsome)
        exact ⟨_, hread, hload⟩

theorem valid_override_iff {base : Options} (h : base.Valid) (c : AnalyzeCommand) :
    (override c base).Valid ↔ c.leastLength ≠ some 0 := by
  obtain ⟨hlength, hdepth⟩ := h
  unfold override Options.Valid
  cases c.leastLength with
  | none => simp [hlength, hdepth]
  | some n => simp [hdepth, Nat.pos_iff_ne_zero]

theorem loadOptions_eq_ok_iff_override (files : FileSystem) (c : AnalyzeCommand) (o : Options) :
    loadOptions files c = .ok o ↔
      (∃ base, StartsFrom files c base ∧ o = override c base) ∧ c.leastLength ≠ some 0 := by
  rw [loadOptions_eq_ok_iff, asks_iff]
  constructor
  · rintro ⟨⟨base, hbase, rfl⟩, hvalid⟩
    exact ⟨⟨base, hbase, rfl⟩, (valid_override_iff hbase.valid c).1 hvalid⟩
  · rintro ⟨⟨base, hbase, rfl⟩, hflag⟩
    exact ⟨⟨base, hbase, rfl⟩, (valid_override_iff hbase.valid c).2 hflag⟩

/-- **What a document and flags make of the settings.** Whatever entries a document presents (and there is one for
every list of them), it is accepted exactly if they are acceptable, gives what they say, and gives the same in every
order; a text is loaded as the document that is read from it. A command gets settings exactly if its document is
accepted on its own and its flag is not zero. -/
theorem settings_of_document_and_flags :
    (∀ entries, ∃ d : Document, d.pairs? = some entries) ∧
    (∀ (d : Document) entries, d.pairs? = some entries →
      ((∃ o, Options.load d = .ok o) ↔ Acceptable entries) ∧
      (∀ o, Options.load d = .ok o → o.Given entries) ∧
      ∀ d' entries', Document.pairs? d' = some entries' → entries'.Perm entries →
        ∀ o, Options.load d' = .ok o ↔ Options.load d = .ok o) ∧
    (∀ d fault, Options.load d = .error fault → ∃ message, fault.failure = .configuration message) ∧
    (∀ text, Options.ofYaml text = Options.load (.ofString text)) ∧
    ∀ files c,
      ((∃ o, loadOptions files c = .ok o) ↔ (∃ base, StartsFrom files c base) ∧ c.leastLength ≠ some 0) ∧
      ∀ o, loadOptions files c = .ok o → o.validate = .ok o ∧
        ∃ base, StartsFrom files c base ∧ o.leastLength = c.leastLength.getD base.leastLength ∧
          o.maxDepth = base.maxDepth ∧ o.strict = if c.strict then true else base.strict := by
  refine ⟨fun entries => ⟨_, Document.pairs?_ofPairs entries⟩, ?_,
    fun _ fault _ => Options.exists_configuration fault, fun _ => rfl, ?_⟩
  · intro d entries h
    have hload := Options.load_eq_ok_iff h
    refine ⟨⟨?_, ?_⟩, fun o ho => ((hload o).1 ho).2, ?_⟩
    · rintro ⟨o, ho⟩
      exact ((hload o).1 ho).1
    · intro haccept
      obtain ⟨o, hgiven⟩ := Options.exists_given haccept
      exact ⟨o, (hload o).2 ⟨haccept, hgiven⟩⟩
    · intro d' entries' h' hperm o
      rw [hload, Options.load_eq_ok_iff h']
      constructor
      · rintro ⟨haccept, hgiven⟩
        exact ⟨Options.acceptable_of_perm hperm.symm haccept, Options.given_of_perm hperm.symm hgiven⟩
      · rintro ⟨haccept, hgiven⟩
        exact ⟨Options.acceptable_of_perm hperm haccept, Options.given_of_perm hperm hgiven⟩
  · intro files c
    refine ⟨⟨?_, ?_⟩, ?_⟩
    · rintro ⟨o, ho⟩
      obtain ⟨⟨base, hbase, -⟩, hflag⟩ := (loadOptions_eq_ok_iff_override files c o).1 ho
      exact ⟨⟨base, hbase⟩, hflag⟩
    · rintro ⟨⟨base, hbase⟩, hflag⟩
      exact ⟨override c base, (loadOptions_eq_ok_iff_override files c _).2 ⟨⟨base, hbase, rfl⟩, hflag⟩⟩
    · intro o ho
      obtain ⟨⟨base, hbase, rfl⟩, hflag⟩ := (loadOptions_eq_ok_iff_override files c o).1 ho
      have hfault := (Options.fault?_eq_none_iff _).2 ((valid_override_iff hbase.valid c).2 hflag)
      refine ⟨?_, base, hbase, rfl, rfl, ?_⟩
      · simp only [Options.validate, hfault]
      · cases hstrict : c.strict <;> simp [override, hstrict]

/-- two entries in one order -/
def depthFirst : String := "max_depth: 0x1F\nshellcode_min_length: +64\n"

/-- the same entries the other way round -/
def lengthFirst : String := "'shellcode_min_length': +64\nmax_depth: 0x1F"

/-- a file with the first of the documents -/
def depthFirstFile : FileSystem where
  find path := if path = "o.yaml" then .ok (.file (Text.encodeUtf8 depthFirst)) else .error .notFound
  writeFault? _ := none

/-- a strict run on the settings of the file, with a flag on top -/
def flagged (leastLength : Option Nat) : AnalyzeCommand where
  paths := []
  leastLength := leastLength
  strict := true
  format := .json
  output := none
  config := some "o.yaml"

theorem settings_of_document_and_flags_reordered :
    Acceptable [("max_depth", ⟨"0x1F", .plain, none⟩), ("shellcode_min_length", ⟨"+64", .plain, none⟩)] ∧
    Options.ofYaml lengthFirst = .ok ⟨64, 31, false⟩ ∧
    (∀ o, Options.ofYaml "max_depth: 3\nmax_depth: 3\n" ≠ .ok o) ∧
    (∃ o, loadOptions depthFirstFile (flagged (some 7)) = .ok o ∧ o.validate = .ok o ∧ o.leastLength = 7 ∧
      o.strict = true) ∧
    ∀ o, loadOptions depthFirstFile (flagged (some 0)) ≠ .ok o := by
  obtain ⟨-, hdocuments, -, -, hflags⟩ := settings_of_document_and_flags
  have hload : Options.ofYaml depthFirst = .ok ⟨64, 31, false⟩ := by decide +kernel
  have hentries : (Document.ofString depthFirst).pairs? =
      some [("max_depth", ⟨"0x1F", .plain, none⟩), ("shellcode_min_length", ⟨"+64", .plain, none⟩)] := by
    decide +kernel
  have hswapped : (Document.ofString lengthFirst).pairs? =
      some [("shellcode_min_length", ⟨"+64", .plain, none⟩), ("max_depth", ⟨"0x1F", .plain, none⟩)] := by
    decide +kernel
  have hrepeated : (Document.ofString "max_depth: 3\nmax_depth: 3\n").pairs? =
      some [("max_depth", ⟨"3", .plain, none⟩), ("max_depth", ⟨"3", .plain, none⟩)] := by
    decide +kernel
  obtain ⟨haccept, -, hperm⟩ := hdocuments _ _ hentries
  refine ⟨haccept.1 ⟨_, hload⟩, (hperm _ _ hswapped (.swap _ _ _) _).2 hload, ?_, ?_, ?_⟩
  · intro o ho
    have hnodup := ((hdocuments _ _ hrepeated).1.1 ⟨o, ho⟩).once
    exact absurd hnodup (by decide)
  · obtain ⟨hexists, hfields⟩ := hflags depthFirstFile (flagged (some 7))
    have hread : depthFirstFile.readText "o.yaml" = .ok depthFirst := by decide +kernel
    obtain ⟨o, ho⟩ := hexists.2 ⟨⟨_, .document rfl hread hload⟩, by decide⟩
    obtain ⟨hvalidate, base, -, hlength, -, hstrict⟩ := hfields o ho
    exact ⟨o, ho, hvalidate, hlength, hstrict⟩
  · intro o ho
    exact ((hflags depthFirstFile (flagged (some 0))).1.1 ⟨o, ho⟩).2 rfl

end Command

end ScriptTriage
