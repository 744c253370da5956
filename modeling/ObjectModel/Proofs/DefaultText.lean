import ObjectModel.Proofs.Description
import ObjectModel.Proofs.Equality
import ObjectModel.Proofs.Hexadecimal
import ObjectModel.Proofs.Identity

/-!
Default texts of objects. The default text joins the name of an object's class and its hash code
by an at sign. The name may contain at signs too, but the numeral of the hash code does not, so the
last one divides the text, and the text tells the name and the hash code. Objects that are hashed by
identity therefore have different default texts as long as their identities differ.
-/

namespace ObjectModel

namespace Text

/-- What stands before and after the last occurrence of a byte. -/
def splitLast (separator : UInt8) : Text → Option (Text × Text)
  | [] => none
  | b :: rest =>
    match splitLast separator rest with
    | some (before, after) => some (b :: before, after)
    | none => if b = separator then some ([], rest) else none

section SplitLast
variable {separator : UInt8} {t before after : Text}

theorem splitLast_eq_none_iff : splitLast separator t = none ↔ separator ∉ t := by
  induction t with
  | nil => simp [splitLast]
  | cons b rest ih =>
    rw [splitLast]
    cases found : splitLast separator rest with
    | some parts =>
      rw [found] at ih
      have inside : separator ∈ rest := by simpa using ih
      simp [inside]
    | none =>
      have outside : separator ∉ rest := ih.mp found
      by_cases here : b = separator
      · simp [here]
      · simp [here, outside, Ne.symm here]

theorem splitLast_eq_some_iff : splitLast separator t = some (before, after) ↔
    t = before ++ separator :: after ∧ separator ∉ after := by
  constructor
  · intro parts
    induction t generalizing before with
    | nil => cases parts
    | cons b rest ih =>
      rw [splitLast] at parts
      cases found : splitLast separator rest with
      | some inner =>
        rw [found] at parts
        cases parts
        obtain ⟨same, last⟩ := ih found
        exact ⟨congrArg (b :: ·) same, last⟩
      | none =>
        rw [found] at parts
        by_cases here : b = separator
        · rw [here, if_pos rfl] at parts
          cases parts
          exact ⟨congrArg (· :: after) here, splitLast_eq_none_iff.mp found⟩
        · rw [if_neg here] at parts
          cases parts
  · rintro ⟨rfl, last⟩
    induction before with
    | nil => rw [List.nil_append, splitLast, splitLast_eq_none_iff.mpr last, if_pos rfl]
    | cons b before ih => rw [List.cons_append, splitLast, ih]

end SplitLast

end Text

/-- The default text of an object of a class with this name that has this hash code. -/
def defaultText (name : Text) (hash : Int32) : Text :=
  name ++ "@" ++ Text.numeral 16 hash.toUInt32.toNat

section Parts
variable {name name' t : Text} {hash hash' : Int32}

theorem toNat_toUInt32 (x : Int32) : x.toUInt32.toNat = (x.toInt % 2 ^ 32).toNat := by
  have bits : x.toInt % ((2 ^ 32 : Nat) : Int) = x.toBitVec.toNat % ((2 ^ 32 : Nat) : Int) := by
    rw [← Int32.toInt_toBitVec, BitVec.toInt_eq_toNat_bmod, Int.bmod_emod]
  have below : x.toBitVec.toNat < 2 ^ 32 := x.toBitVec.isLt
  change x.toBitVec.toNat = (x.toInt % ((2 ^ 32 : Nat) : Int)).toNat
  rw [bits]
  omega

theorem at_not_mem_numeral (n : Nat) : 0x40 ∉ Text.numeral 16 n := by
  intro member
  exact absurd ((Text.numeral_isHexadecimal n).digits _ member) (by decide)

theorem defaultText_eq (name : Text) (hash : Int32) :
    defaultText name hash = name ++ 0x40 :: Text.numeral 16 hash.toUInt32.toNat := by
  rw [defaultText, List.append_assoc]
  rfl

theorem splitLast_defaultText (name : Text) (hash : Int32) :
    (defaultText name hash).splitLast 0x40 = some (name, Text.numeral 16 hash.toUInt32.toNat) :=
  Text.splitLast_eq_some_iff.mpr ⟨defaultText_eq name hash, at_not_mem_numeral _⟩

/-- The default text is the only text that divides, at its last at sign, into the name and the
numeral of the hash code. -/
theorem eq_defaultText_iff : t = defaultText name hash ↔
    ∃ digits, t.splitLast 0x40 = some (name, digits) ∧
      digits.IsHexadecimal (hash.toInt % 2 ^ 32).toNat := by
  constructor
  · rintro rfl
    refine ⟨_, splitLast_defaultText name hash, ?_⟩
    rw [← toNat_toUInt32]
    exact Text.numeral_isHexadecimal _
  · rintro ⟨digits, parts, numerical⟩
    obtain ⟨rfl, -⟩ := Text.splitLast_eq_some_iff.mp parts
    rw [numerical.eq_numeral, defaultText_eq, toNat_toUInt32]

theorem defaultText_inj : defaultText name hash = defaultText name' hash' ↔
    name = name' ∧ hash = hash' := by
  constructor
  · intro same
    have parts := splitLast_defaultText name hash
    rw [same, splitLast_defaultText, Option.some.injEq, Prod.mk.injEq] at parts
    have bits := UInt32.toNat_inj.mp (Text.numeral_injective parts.2)
    exact ⟨parts.1.symm, (Int32.toBitVec.inj (congrArg UInt32.toBitVec bits)).symm⟩
  · rintro ⟨rfl, rfl⟩
    rfl

end Parts

namespace World

/-- The name of the class that a table belongs to. A core class has its name before it exists. -/
def ownerName? (w : World) (t : DispatchTable) : Option Text :=
  match t.own.owner with
  | .known c => (w.class? c).map Class.name
  | .core which => some which.name
  | .absent | .null => none

def className? (w : World) (id : ObjectId) : Option Text :=
  (w.object? id).bind fun o => w.ownerName? o.table

end World

theorem Grows.className? {w w' : World} (grown : Grows w w') {id : ObjectId} {name : Text}
    (named : w.className? id = some name) : w'.className? id = some name := by
  obtain ⟨o, found, own⟩ := Option.bind_eq_some_iff.mp named
  obtain ⟨o', found', table, -⟩ := grown.objects found
  rw [World.className?, found', Option.bind_some, table]
  unfold World.ownerName? at own ⊢
  split at own
  · obtain ⟨k, known, rfl⟩ := Option.map_eq_some_iff.mp own
    rw [grown.class? known]
    rfl
  · exact own
  · cases own
  · cases own

namespace Action

def classNameOf (h : Handle) : Action Text := do className (← objectGetClass h)

/-- Run in this world, the class of the handle has this name. -/
def ClassNamed (w : World) (h : Handle) (name : Text) : Prop :=
  ∃ w', (classNameOf h).run w = (.ok name, w')

/-- Run in this world, the default text of the handle is the given one. -/
def RendersByDefault (w : World) (h : Handle) (t : Text) : Prop :=
  ∃ id w', (objectToString h).run w = (.ok id, w') ∧ w'.text? id = some t

/-- The hash code of the handle is the identity of its object. -/
def HashedByIdentity (w : World) (h : Handle) : Prop :=
  ∃ hash, Hashes w h hash ∧ (objectHashCode h).run w = (.ok hash, w)

section Names
variable {w : World} {t : DispatchTable} {id : ObjectId} {o : Obj} {v : View} {name : Text}

/-- A table that belongs to a class leads to the name of the class, which is created for that if it
has to be. -/
theorem ownerName_classed (well : w.WellFormed) (valid : t.Valid w) (classed : t.Classed) :
    ∃ name w', w.ownerName? t = some name ∧ (owner t >>= className).run w = (.ok name, w') := by
  unfold World.ownerName? owner
  cases own : t.own.owner with
  | absent => exact absurd own classed.1
  | null => exact absurd own classed.2
  | known c =>
    obtain ⟨k, known⟩ := World.class?_of_lt (valid t.own List.mem_cons_self c own)
    exact ⟨k.name, w, congrArg (Option.map Class.name) known, run_className known⟩
  | core which =>
    obtain ⟨c, w', ran, run, found⟩ :=
      (coreClass_ends (P := .quiet) (E := fun _ _ => False) which).returns well
    obtain ⟨k, known, -⟩ := World.find?_some found
    -- The class may have been defined by a program, but under this key it has this name.
    have named : k.name = which.name :=
      (run.wellFormed well).name_of_find which.name_plain found known
    refine ⟨which.name, w', rfl, ?_⟩
    dsimp only
    rw [map_eq_pure_bind, run_bind, run_bind, ran, ← named]
    exact run_className known

theorem ownerName_unclassed (unclassed : ¬ t.Classed) :
    w.ownerName? t = none ∧
      (owner t >>= className).run w = (.error (.crash .nullDereference), w) := by
  constructor
  · unfold World.ownerName?
    cases own : t.own.owner with
    | absent | null => rfl
    | known | core => simp [DispatchTable.Classed, own] at unclassed
  · rw [run_bind]
    rcases owner_unclassed unclassed with none | crash
    · rw [none]
      rfl
    · rw [crash]

theorem run_classNameOf (found : w.object? id = some o) (v : View) :
    (classNameOf (.object id v)).run w = (owner o.table >>= className).run w := by
  unfold classNameOf
  rw [run_bind, run_bind, run_getClass found]

theorem classNamed_iff (well : w.WellFormed) (valid : (Handle.object id v).Valid w) :
    ClassNamed w (.object id v) name ↔ w.className? id = some name := by
  obtain ⟨o, found, -⟩ := valid id v rfl
  rw [ClassNamed, run_classNameOf found, World.className?, found, Option.bind_some]
  by_cases classed : o.table.Classed
  · obtain ⟨own, w', named, ran⟩ := ownerName_classed well (well.object_table_valid found) classed
    rw [ran, named]
    constructor
    · rintro ⟨_, same⟩
      cases same
      rfl
    · rintro ⟨rfl⟩
      exact ⟨w', rfl⟩
  · obtain ⟨unnamed, crashed⟩ := ownerName_unclassed (w := w) classed
    rw [crashed, unnamed]
    constructor
    · rintro ⟨_, same⟩
      cases same
    · rintro ⟨⟩

theorem hashes_iff (valid : (Handle.object id v).Valid w) {hash : Int32} :
    Hashes w (.object id v) hash ↔ w.hashOf id = hash := by
  have own := hashes_hashOf valid
  constructor
  · intro hashed
    rw [Hashes, hashed] at own
    cases own
    rfl
  · rintro rfl
    exact own

end Names

section Texts
variable {w w' : World} {id : ObjectId} {o : Obj} {v : View} {name t : Text}

theorem objectToString_eq (h : Handle) : objectToString h = (do
    let name ← classNameOf h
    let hash ← hashCode h
    newString (defaultText name hash)) := by
  unfold objectToString classNameOf
  rw [bind_assoc]
  rfl

theorem classNameOf_ends {P : Policy} (h : Handle) :
    Orderly P (classNameOf h) w (fun _ _ => True) :=
  (objectGetClass_ends h).andThen fun _ _ => className_ends _

/-- The hash code is asked for after the name, for which the class may have been created. -/
theorem run_objectToString (well : w.WellFormed) (valid : (Handle.object id v).Valid w)
    (named : (classNameOf (.object id v)).run w = (.ok name, w')) :
    (objectToString (.object id v)).run w =
      (.ok w'.objects.size, w'.push .string (.string (defaultText name (w.hashOf id)))) := by
  obtain ⟨o, found, -⟩ := valid id v rfl
  have grown := ((classNameOf_ends (P := .any) _).of_ok well named).1.grows
  have hashed : (hashCode (.object id v)).run w' = (.ok (w.hashOf id), w') := by
    rw [← grown.hashOf found]
    exact hashes_hashOf (valid.mono grown)
  rw [objectToString_eq, run_bind, named]
  dsimp only
  rw [run_bind, hashed]
  rfl

/-- The default text of an object is made of the name of its class and its hash code. -/
theorem rendersByDefault_iff (well : w.WellFormed) (valid : (Handle.object id v).Valid w) :
    RendersByDefault w (.object id v) t ↔
      ∃ name, w.className? id = some name ∧ t = defaultText name (w.hashOf id) := by
  constructor
  · rintro ⟨new, w'', ran, text⟩
    obtain ⟨name, w', named, -⟩ := run_bind_ok (objectToString_eq (.object id v) ▸ ran)
    rw [run_objectToString well valid named] at ran
    cases ran
    rw [World.text?_new] at text
    exact ⟨name, (classNamed_iff well valid).mp ⟨w', named⟩, (Option.some.inj text).symm⟩
  · rintro ⟨name, known, rfl⟩
    obtain ⟨w', named⟩ := (classNamed_iff well valid).mpr known
    exact ⟨_, _, run_objectToString well valid named, World.text?_new _⟩

theorem objectToString_unclassed (found : w.object? id = some o) (unclassed : ¬ o.table.Classed)
    (v : View) :
    (objectToString (.object id v)).run w = (.error (.crash .nullDereference), w) := by
  rw [objectToString_eq, run_bind, run_classNameOf found, (ownerName_unclassed unclassed).2]

/-- As long as there are fewer objects than identities, two objects that are hashed by identity have
different hash codes, also if they are asked for one after the other. -/
theorem hashOf_ne_of_identity {other : ObjectId} {u : View} (grown : Grows w w')
    (few : w'.objects.size < UInt32.size) (valid : (Handle.object id v).Valid w)
    (valid' : (Handle.object other u).Valid w') (apart : id ≠ other)
    (own : HashedByIdentity w (.object id v)) (own' : HashedByIdentity w' (.object other u)) :
    w.hashOf id ≠ w'.hashOf other := by
  obtain ⟨hash, hashed, ⟨⟩⟩ := own
  obtain ⟨hash', hashed', ⟨⟩⟩ := own'
  rw [(hashes_iff valid).mp hashed, (hashes_iff valid').mp hashed']
  obtain ⟨o, found, -⟩ := valid.mono grown id v rfl
  obtain ⟨o', found', -⟩ := valid' other u rfl
  intro same
  exact apart (identity_injective few (w'.lt_of_object? found) (w'.lt_of_object? found') same)

end Texts

end Action

/-- The default text of an object exists if the object has a class, and it is the one text that
divides, at its last at sign, into the name of the class and the numeral of the hash code, taken as
a number without sign. -/
structure World.CanonicallyRendered (w : World) (id : ObjectId) (v : View) (o : Obj) : Prop where
  returns : o.table.Classed → ∃ t, Action.RendersByDefault w (.object id v) t
  crashes : ¬ o.table.Classed → (Action.objectToString (.object id v)).run w =
    (.error (.crash .nullDereference), w)
  parts : ∀ {t}, Action.RendersByDefault w (.object id v) t ↔ ∃ name hash digits,
    Action.ClassNamed w (.object id v) name ∧ Action.Hashes w (.object id v) hash ∧
      t.splitLast 0x40 = some (name, digits) ∧
      digits.IsHexadecimal (hash.toInt % 2 ^ 32).toNat

theorem World.WellFormed.canonicallyRendered {w : World} (well : w.WellFormed) {id : ObjectId}
    {v : View} {o : Obj} (valid : (Handle.object id v).Valid w) (found : w.object? id = some o) :
    w.CanonicallyRendered id v o := by
  constructor
  case returns =>
    intro classed
    obtain ⟨name, -, named, -⟩ :=
      Action.ownerName_classed well (well.object_table_valid found) classed
    have known : w.className? id = some name := by
      rw [className?, found]
      exact named
    exact ⟨_, (Action.rendersByDefault_iff well valid).mpr ⟨name, known, rfl⟩⟩
  case crashes => exact fun unclassed => Action.objectToString_unclassed found unclassed v
  case parts =>
    intro t
    simp only [Action.rendersByDefault_iff well valid, Action.classNamed_iff well valid,
      Action.hashes_iff valid, eq_defaultText_iff]
    constructor
    · rintro ⟨name, named, digits, divided⟩
      exact ⟨name, _, digits, named, rfl, divided⟩
    · rintro ⟨name, _, digits, named, rfl, divided⟩
      exact ⟨name, named, digits, divided⟩

namespace Script

namespace Session

/-- In a run, every object that has a class has a default text, which is the one text that divides,
at its last at sign, into the name of the class and the hexadecimal numeral of the hash code; it
stays the same through all that is performed afterwards. At whatever moments of the run the default
texts of two objects are taken, they are equal exactly if the names of the classes and the hash
codes are. With fewer objects than there are identities, different objects that are hashed by
identity, as all are but strings and points, have different default texts. -/
theorem Runs.default_texts_separate {files : FileSystem} {verbosity : Int}
    {done more : List Performed} {s s' : Session}
    (run : (Session.withVerbosity { files } verbosity).Runs done s) (rest : s.Runs more s')
    {id other : ObjectId} {v u : View} (valid : (Handle.object id v).Valid s.world)
    (valid' : (Handle.object other u).Valid s'.world) :
    (∃ o, s.world.object? id = some o ∧ s.world.CanonicallyRendered id v o) ∧
    (∀ {t}, Action.RendersByDefault s.world (.object id v) t →
      Action.RendersByDefault s'.world (.object id v) t) ∧
    (v ≠ .string → v.isPoint = false → Action.HashedByIdentity s.world (.object id v)) ∧
    ∀ {t t'}, Action.RendersByDefault s.world (.object id v) t →
      Action.RendersByDefault s'.world (.object other u) t' →
      (t = t' ↔ ∃ name hash,
        Action.ClassNamed s.world (.object id v) name ∧
        Action.ClassNamed s'.world (.object other u) name ∧
        Action.Hashes s.world (.object id v) hash ∧
        Action.Hashes s'.world (.object other u) hash) ∧
      (s'.world.objects.size < UInt32.size → id ≠ other →
        Action.HashedByIdentity s.world (.object id v) →
        Action.HashedByIdentity s'.world (.object other u) → t ≠ t') := by
  have sound := run.valid (Reachable.start files verbosity).valid
  obtain ⟨evolved, sound'⟩ := rest.evolves sound
  have well := sound.well
  have well' := sound'.well
  have grown := evolved.grows
  obtain ⟨o, found, -⟩ := valid id v rfl
  refine ⟨⟨o, found, well.canonicallyRendered valid found⟩, ?_, ?_, ?_⟩
  · intro t rendered
    obtain ⟨name, named, rfl⟩ := (Action.rendersByDefault_iff well valid).mp rendered
    rw [Action.rendersByDefault_iff well' (valid.mono grown), grown.hashOf found]
    exact ⟨name, grown.className? named, rfl⟩
  · intro notString notPoint
    exact ⟨identity id, Action.hashes_identity found notString notPoint, rfl⟩
  · intro t t' rendered rendered'
    obtain ⟨name, named, rfl⟩ := (Action.rendersByDefault_iff well valid).mp rendered
    obtain ⟨name', named', rfl⟩ := (Action.rendersByDefault_iff well' valid').mp rendered'
    constructor
    · simp only [defaultText_inj, Action.classNamed_iff well valid, Action.hashes_iff valid,
        Action.classNamed_iff well' valid', Action.hashes_iff valid', named, named']
      constructor
      · rintro ⟨rfl, same⟩
        exact ⟨name, _, rfl, rfl, rfl, same.symm⟩
      · rintro ⟨_, _, ⟨⟩, ⟨⟩, rfl, same⟩
        exact ⟨rfl, same.symm⟩
    · intro few apart own own' same
      have different := Action.hashOf_ne_of_identity grown few valid valid' apart own own'
      exact different (defaultText_inj.mp same).2

end Session

/-- A script that makes two objects of a class with at signs in its name, and a string whose hash
code is the least of all. -/
def namedByAtSigns : List Step :=
  [.perform (.classes (.define "a@b@" .null [])) (some "k") none,
    .perform (.object (.newBare (.variable "k"))) none none,
    .perform (.object (.newBare (.variable "k"))) none none,
    .perform (.object (.newString "polygenelubricants")) none none]

theorem default_texts_separate_namedByAtSigns :
    let start := Session.withVerbosity {} 0
    let s := (start.runAll namedByAtSigns).2
    let s' := (s.runAll [.perform (.object .newObject) none none]).2
    s'.world.objects.size < UInt32.size ∧
    Action.HashedByIdentity s.world (.object 4 .bare) ∧
    Action.HashedByIdentity s'.world (.object 5 .bare) ∧
    Action.RendersByDefault s.world (.object 4 .bare) "a@b@@5" ∧
    Action.RendersByDefault s'.world (.object 4 .bare) "a@b@@5" ∧
    Action.RendersByDefault s'.world (.object 5 .bare) "a@b@@6" ∧
    Text.ofString "a@b@@5" ≠ "a@b@@6" ∧
    Action.RendersByDefault s.world (.object 6 .string) "java.lang.String@80000000" := by
  intro start s s'
  have run : start.Runs _ s := Session.runs_trail _ (Session.Reachable.start {} 0).valid
  have sound : s.Valid := run.valid (Session.Reachable.start {} 0).valid
  have rest : s.Runs _ s' := Session.runs_trail _ sound
  have sound' : s'.Valid := rest.valid sound
  have views : [4, 6].map (fun id => (s.world.body? id).map Body.view) =
      [some .bare, some .string] := by decide +kernel
  have names : [4, 6].map s.world.className? =
      [some (Text.ofString "a@b@"), some (Text.ofString "java.lang.String")] := by decide +kernel
  have hashes : [4, 6].map s.world.hashOf = [5, -2147483648] := by decide +kernel
  have view' : (s'.world.body? 5).map Body.view = some .bare := by decide +kernel
  have name' : s'.world.className? 5 = some (Text.ofString "a@b@") := by decide +kernel
  have hash' : s'.world.hashOf 5 = 6 := by decide +kernel
  have few : s'.world.objects.size < UInt32.size := by decide +kernel
  obtain ⟨bare, views⟩ := List.cons.inj views
  obtain ⟨name, names⟩ := List.cons.inj names
  obtain ⟨hash, hashes⟩ := List.cons.inj hashes
  have one : (Handle.object 4 .bare).Valid s.world := World.handle_valid_view bare (by decide)
  have two : (Handle.object 5 .bare).Valid s'.world := World.handle_valid_view view' (by decide)
  have word : (Handle.object 6 .string).Valid s.world :=
    World.handle_valid_view (List.cons.inj views).1 (by decide)
  obtain ⟨⟨_, -, first⟩, stays, own, separate⟩ := run.default_texts_separate rest one two
  obtain ⟨⟨_, -, second⟩, -, own', -⟩ := (run.trans rest).default_texts_separate .refl two two
  obtain ⟨⟨_, -, third⟩, -⟩ := run.default_texts_separate .refl word word
  have text : Action.RendersByDefault s.world (.object 4 .bare) "a@b@@5" :=
    first.parts.mpr ⟨_, _, "5", (Action.classNamed_iff sound.well one).mpr name,
      (Action.hashes_iff one).mpr hash, by decide, Text.isHexadecimal_iff.mpr (by decide)⟩
  have text' : Action.RendersByDefault s'.world (.object 5 .bare) "a@b@@6" :=
    second.parts.mpr ⟨_, _, "6", (Action.classNamed_iff sound'.well two).mpr name',
      (Action.hashes_iff two).mpr hash', by decide, Text.isHexadecimal_iff.mpr (by decide)⟩
  have least : Action.RendersByDefault s.world (.object 6 .string) "java.lang.String@80000000" :=
    third.parts.mpr ⟨_, _, "80000000",
      (Action.classNamed_iff sound.well word).mpr (List.cons.inj names).1,
      (Action.hashes_iff word).mpr (List.cons.inj hashes).1, by decide,
      Text.isHexadecimal_iff.mpr (by decide)⟩
  have identity := own (by decide) rfl
  have identity' := own' (by decide) rfl
  exact ⟨few, identity, identity', text, stays text, text',
    (separate text text').2 few (by decide) identity identity', least⟩

end Script

end ObjectModel
