import SpikeDevices.Machine.Basic

/-!
# Device arguments

The `virtioblk_t` and `virtionet_t` constructors receive the arguments of a `--device` option
as strings and turn them into a `std::map` from key to value. An argument with an `=` gives
the text before its first `=` as the key and the text after it as the value; an argument
without one is skipped; and `std::map::insert` never replaces a value, so a repeated key
keeps the value of its first argument.

`lookup_parseArgmap` says what the map holds: for each key, the value of the first argument
that names it (`argValue`). `parseArgmap_keyValue` is the round trip: arguments written
`key=value` with no `=` in the key read back as written, with any `=` in the value kept.
-/

namespace SpikeDevices.Plugin

/-- `std::string::find(c)`: the position of the first `c`, or `none` for `npos`. -/
def stringFind (c : Char) : List Char → Option Nat
  | [] => none
  | d :: s => if d = c then some 0 else (stringFind c s).map (· + 1)

/-- The `std::map<std::string, std::string>` of the arguments, as its entries in the order
they were inserted; `argmap.find(key)` is `List.lookup`. -/
abbrev ArgMap := List (List Char × List Char)

/-- `std::map::insert`: the entry is added unless the key is present, whose value stays. -/
def ArgMap.insert (argmap : ArgMap) (key value : List Char) : ArgMap :=
  if (argmap.lookup key).isSome then argmap else argmap ++ [(key, value)]

/-- One pass of the argument loop: the argument is split by `arg.substr(0, eq_idx)` and
`arg.substr(eq_idx + 1)` around its first `=` and inserted, or skipped without an `=`. -/
def insertArg (argmap : ArgMap) (arg : List Char) : ArgMap :=
  match stringFind '=' arg with
  | none => argmap
  | some eqIdx => argmap.insert (arg.take eqIdx) (arg.drop (eqIdx + 1))

/-- The argument loop of the `virtioblk_t` and `virtionet_t` constructors. -/
def parseArgmap (sargs : List (List Char)) : ArgMap := sargs.foldl insertArg []

/-! ## The value of a key -/

/-- An argument split at its first `=`, or `none` without one. -/
def splitArg (arg : List Char) : Option (List Char × List Char) :=
  (stringFind '=' arg).map fun i => (arg.take i, arg.drop (i + 1))

/-- The value of the first argument whose text before its first `=` is `key`. -/
def argValue (key : List Char) (sargs : List (List Char)) : Option (List Char) :=
  (sargs.filterMap splitArg).lookup key

/-- What one argument says about `key`. -/
def entryValue (key arg : List Char) : Option (List Char) :=
  (splitArg arg).bind fun kv => if key = kv.1 then some kv.2 else none

theorem ArgMap.lookup_cons (k key v : List Char) (argmap : ArgMap) :
    ((k, v) :: argmap).lookup key = if key = k then some v else argmap.lookup key := by
  rw [List.lookup_cons]
  by_cases h : key = k
  · simp [h]
  · simp [h, beq_eq_false_iff_ne.mpr h]

theorem argValue_cons (key arg : List Char) (sargs : List (List Char)) :
    argValue key (arg :: sargs) = (entryValue key arg).or (argValue key sargs) := by
  unfold argValue entryValue
  rw [List.filterMap_cons]
  cases splitArg arg with
  | none => rfl
  | some kv =>
    obtain ⟨k, v⟩ := kv
    by_cases h : key = k <;> simp [ArgMap.lookup_cons, h]

theorem ArgMap.lookup_insert (argmap : ArgMap) (k v key : List Char) :
    (argmap.insert k v).lookup key = (argmap.lookup key).or (if key = k then some v else none) := by
  unfold ArgMap.insert
  split
  · next hk =>
    by_cases h : key = k
    · rw [h, Option.or_of_isSome hk]
    · simp [h]
  · by_cases h : key = k <;> simp [List.lookup_append, ArgMap.lookup_cons, h]

theorem lookup_insertArg (argmap : ArgMap) (key arg : List Char) :
    (insertArg argmap arg).lookup key = (argmap.lookup key).or (entryValue key arg) := by
  unfold insertArg entryValue splitArg
  cases stringFind '=' arg with
  | none => simp
  | some i => simp [ArgMap.lookup_insert]

/-- The loop from any map: a key keeps the value it has, else takes the first the arguments
give it. -/
theorem lookup_foldl_insertArg (key : List Char) :
    ∀ (sargs : List (List Char)) (argmap : ArgMap),
      (sargs.foldl insertArg argmap).lookup key = (argmap.lookup key).or (argValue key sargs)
  | [], argmap => by simp [argValue]
  | arg :: sargs, argmap => by
    rw [List.foldl_cons, lookup_foldl_insertArg key sargs, lookup_insertArg, Option.or_assoc,
      argValue_cons]

/-- The map the constructors build gives each key the value of the first argument that names
it, split at that argument's first `=`; later arguments with the same key and arguments
without an `=` change nothing. -/
theorem lookup_parseArgmap (sargs : List (List Char)) (key : List Char) :
    (parseArgmap sargs).lookup key = argValue key sargs := by
  simpa using lookup_foldl_insertArg key sargs []

/-! ## Arguments written as `key=value` -/

theorem stringFind_keyValue {key : List Char} (hkey : '=' ∉ key) (value : List Char) :
    stringFind '=' (key ++ '=' :: value) = some key.length := by
  induction key with
  | nil => simp [stringFind]
  | cons c key ih =>
    simp only [List.mem_cons, not_or] at hkey
    simp [stringFind, Ne.symm hkey.1, ih hkey.2]

theorem splitArg_keyValue {key : List Char} (hkey : '=' ∉ key) (value : List Char) :
    splitArg (key ++ '=' :: value) = some (key, value) := by
  simp [splitArg, stringFind_keyValue hkey]

/-- Arguments written `key=value` from a list of pairs whose keys hold no `=` read back as
the pairs: each key has the value of its first pair, whatever the value holds. -/
theorem argValue_keyValue (pairs : List (List Char × List Char)) (hkeys : ∀ p ∈ pairs, '=' ∉ p.1)
    (key : List Char) : argValue key (pairs.map fun p => p.1 ++ '=' :: p.2) = pairs.lookup key := by
  induction pairs with
  | nil => rfl
  | cons p pairs ih =>
    obtain ⟨k, v⟩ := p
    rw [List.map_cons, argValue_cons, ih fun q hq => hkeys q (List.mem_cons_of_mem _ hq)]
    have hk : '=' ∉ k := hkeys (k, v) (List.mem_cons_self _ _)
    by_cases h : key = k <;> simp [entryValue, splitArg_keyValue hk, ArgMap.lookup_cons, h]

example : argValue "img".toList ["img=a=b".toList, "ro".toList, "img=c".toList] = some "a=b".toList := by
  decide

/-- The constructors' map over arguments written `key=value` from pairs whose keys hold no
`=`: each key finds the value of its first pair, whatever that value holds, and a key of no
pair finds nothing. -/
theorem parseArgmap_keyValue (pairs : List (List Char × List Char))
    (hkeys : ∀ p ∈ pairs, '=' ∉ p.1) (key : List Char) :
    (parseArgmap (pairs.map fun p => p.1 ++ '=' :: p.2)).lookup key = pairs.lookup key := by
  rw [lookup_parseArgmap, argValue_keyValue pairs hkeys]

theorem parseArgmap_keyValue_img :
    (∀ p ∈ [("img".toList, "a=b".toList), ("img".toList, "c".toList)], '=' ∉ p.1) ∧
    (parseArgmap ([("img".toList, "a=b".toList), ("img".toList, "c".toList)].map
        fun p => p.1 ++ '=' :: p.2)).lookup "img".toList =
      [("img".toList, "a=b".toList), ("img".toList, "c".toList)].lookup "img".toList :=
  ⟨by decide, parseArgmap_keyValue _ (by decide) _⟩

end SpikeDevices.Plugin
