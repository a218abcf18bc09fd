import StyleVars.Proofs.PropertySet.Collected

namespace StyleVars

namespace PropertySet

theorem ofList_toList (s : PropertySet) : ofList s.toList = s := by
  apply eq_of_mem_iff
  intro x
  rw [mem_toList_ofList]

theorem read_toJson (s : PropertySet) :
    Json.read s.toJson = some (.array (s.toList.map fun name => .string (some name))) :=
  Json.read_writeList s.toList

theorem ofJson?_toJson (s : PropertySet) : ofJson? s.toJson = some s :=
  ofJson?_eq_some_iff.2 ⟨s.toList, read_toJson s, ofList_toList s⟩

end PropertySet

namespace Snapshot

variable {s : Snapshot} {json : Text}

theorem ofValues?_eq_some_iff {root properties : Json.Value} :
    ofValues? root properties = some s ↔ ∃ (folder : Text) (names : List Text),
      root = .string (some folder) ∧
      properties = .array (names.map fun name => .string (some name)) ∧
      s = ⟨Path.ofText folder, .ofList names⟩ := by
  simp only [ofValues?, PropertySet.ofValue?, Option.bind_eq_bind, Option.bind_eq_some_iff,
    Option.map_eq_map, Option.map_eq_some_iff, Json.Value.text?_eq_some_iff,
    Json.Value.texts?_eq_some_iff, Option.some.injEq]
  constructor
  · rintro ⟨folder, rfl, _, ⟨names, rfl, rfl⟩, rfl⟩
    exact ⟨folder, names, rfl, rfl, rfl⟩
  · rintro ⟨folder, names, rfl, rfl, rfl⟩
    exact ⟨folder, rfl, _, ⟨names, rfl, rfl⟩, rfl⟩

theorem ofJson?_of_toJson? (h : s.toJson? = some json) : ofJson? json = some s := by
  obtain ⟨folder, hroot, hread⟩ := read_of_toJson? h
  have hfolder : s.root = Path.ofText folder := Utf8.decode?_eq_some_iff.1 hroot
  have hvalues : ofValues? (.string (some folder))
      (.array (s.properties.names.map fun name => .string (some name))) = some s := by
    refine ofValues?_eq_some_iff.2 ⟨folder, s.properties.toList, rfl, rfl, ?_⟩
    rw [PropertySet.ofList_toList, ← hfolder]
  rw [ofJson?, hread]
  exact hvalues

theorem exists_root_of_ofJson? (h : ofJson? json = some s) :
    ∃ folder, Utf8.decode? s.root = some folder := by
  have hroot {root properties : Json.Value} (h : ofValues? root properties = some s) :
      ∃ folder, Utf8.decode? s.root = some folder := by
    obtain ⟨folder, names, -, -, rfl⟩ := ofValues?_eq_some_iff.1 h
    exact ⟨folder, Utf8.decode?_encode folder⟩
  obtain ⟨v, -, hv⟩ := Option.bind_eq_some_iff.1 h
  unfold ofValue? at hv
  split at hv
  case h_1 members =>
    split at hv
    case isTrue =>
      obtain ⟨root, -, hv⟩ := Option.bind_eq_some_iff.1 hv
      obtain ⟨properties, -, hv⟩ := Option.bind_eq_some_iff.1 hv
      exact hroot hv
    case isFalse => cases hv
  case h_2 => exact hroot hv
  case h_3 => cases hv

/-- Sets are read back from their JSON, and so are snapshots whose root is UTF-8. Whatever can be
read makes a set or a snapshot that is read back from its own JSON, and there the names stand in
ascending order, each of them once, whatever the list was that they were read from. -/
theorem sets_and_snapshots_read_back :
    (∀ s : PropertySet, PropertySet.ofJson? s.toJson = some s) ∧
    (∀ (s : Snapshot) (folder : Text), Utf8.decode? s.root = some folder →
      ∃ json, s.toJson? = some json ∧ ofJson? json = some s) ∧
    (∀ (json : Text) (s : PropertySet), PropertySet.ofJson? json = some s →
      PropertySet.ofJson? s.toJson = some s ∧
      ∃ given written : List Text,
        Json.read json = some (.array (given.map fun name => .string (some name))) ∧
        Json.read s.toJson = some (.array (written.map fun name => .string (some name))) ∧
        written.Pairwise (List.Lex fun a b => a.toNat < b.toNat) ∧ ∀ x, x ∈ written ↔ x ∈ given) ∧
    ∀ (json : Text) (s : Snapshot), ofJson? json = some s →
      ∃ (again folder : Text) (written : List Text),
        s.toJson? = some again ∧ ofJson? again = some s ∧
        Json.read again = some (.object [(some rootKey, .string (some folder)),
          (some propertiesKey, .array (written.map fun name => .string (some name)))]) ∧
        written.Pairwise (List.Lex fun a b => a.toNat < b.toNat) := by
  refine ⟨PropertySet.ofJson?_toJson, fun s folder hfolder => ?_, fun json s h => ?_,
    fun json s h => ?_⟩
  · obtain ⟨json, hjson⟩ := exists_toJson? (Option.isSome_iff_exists.2 ⟨folder, hfolder⟩)
    exact ⟨json, hjson, ofJson?_of_toJson? hjson⟩
  · obtain ⟨given, hread, rfl⟩ := PropertySet.ofJson?_eq_some_iff.1 h
    refine ⟨PropertySet.ofJson?_toJson _, given, (PropertySet.ofList given).toList, hread,
      PropertySet.read_toJson _, PropertySet.ascending_codePoints _, fun x => ?_⟩
    exact PropertySet.mem_toList_ofList
  · obtain ⟨folder, hfolder⟩ := exists_root_of_ofJson? h
    obtain ⟨again, hagain⟩ := exists_toJson? (Option.isSome_iff_exists.2 ⟨folder, hfolder⟩)
    obtain ⟨folder', -, hread⟩ := read_of_toJson? hagain
    exact ⟨again, folder', s.properties.toList, hagain, ofJson?_of_toJson? hagain, hread,
      PropertySet.ascending_codePoints _⟩

theorem sets_and_snapshots_read_back_control :
    let name : Text := ['"', '\\', '\x01']
    let set : PropertySet := { names := [name, ['a']] }
    let snapshot : Snapshot := ⟨Path.ofText ['/', 'ä'], set⟩
    let given : Text := "[\"a\",\"\\\"\\\\\\u0001\", \"a\"]".toList
    let pair : Text := "[\"/\\u00E4\",".toList ++ given ++ [']']
    Utf8.decode? snapshot.root = some ['/', 'ä'] ∧ PropertySet.ofJson? given = some set ∧
    ofJson? pair = some snapshot ∧ PropertySet.ofJson? set.toJson = some set ∧
    (∃ json, snapshot.toJson? = some json ∧ ofJson? json = some snapshot) ∧
    ∃ (again folder : Text) (written : List Text), snapshot.toJson? = some again ∧
      Json.read again = some (.object [(some rootKey, .string (some folder)),
        (some propertiesKey, .array (written.map fun name => .string (some name)))]) ∧
      written.Pairwise (List.Lex fun a b => a.toNat < b.toNat) := by
  intro name set snapshot given pair
  have hset : PropertySet.ofList [['a'], name, ['a']] = set := by
    rw [← PropertySet.ofList_toList set, PropertySet.ofList_eq_iff]
    intro x
    simp only [set, PropertySet.toList, List.mem_cons, List.not_mem_nil, or_false]
    tauto
  have hread : Json.read given =
      some (.array ([['a'], name, ['a']].map fun name => .string (some name))) := by rfl
  have hgiven : PropertySet.ofJson? given = some set :=
    PropertySet.ofJson?_eq_some_iff.2 ⟨_, hread, hset⟩
  have hpair : ofJson? pair = some snapshot := by
    have hvalues : ofJson? pair = ofValues? (.string (some ['/', 'ä']))
        (.array ([['a'], name, ['a']].map fun name => .string (some name))) := by rfl
    rw [hvalues, ofValues?_eq_some_iff]
    exact ⟨_, _, rfl, rfl, by rw [hset]⟩
  have hfolder : Utf8.decode? snapshot.root = some ['/', 'ä'] := Utf8.decode?_encode _
  obtain ⟨-, hwrite, hsets, hsnapshots⟩ := sets_and_snapshots_read_back
  obtain ⟨again, folder, written, hagain, -, hread', hwritten⟩ := hsnapshots pair snapshot hpair
  exact ⟨hfolder, hgiven, hpair, (hsets given set hgiven).1, hwrite snapshot _ hfolder, again,
    folder, written, hagain, hread', hwritten⟩

end Snapshot

end StyleVars
