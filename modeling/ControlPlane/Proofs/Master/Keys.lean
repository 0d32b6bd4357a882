/-
# What the keys of the master's caches tell apart

A key is a class and a text. What is kept under a key may depend on nothing that the key
does not determine, so the keys are read back here: a row count belongs to one table and
one filter, a tenant's scope to one account, and a scoped operator's scope to one username
and one choice of options. The assigned hosts are not part of that last key.
-/

import ControlPlane.Master
import ControlPlane.Proofs.Datum.JsonText

namespace ControlPlane

open Json

/-! ## Row counts -/

/-- A list of identifiers as a JSON text. -/
private theorem compact_ofSet {kind : IdKind} (ids : Std.ExtTreeSet (Id kind)) :
    compact (.ofSet .ofId ids) =
      '[' :: separated [','] ((ids.toList.map (·.number.toNat)).map fun n : Nat => integer n)
        ++ [']'] := by
  have hitems (items : List (Id kind)) :
      compactItems (items.map Datum.ofId) =
        (items.map (·.number.toNat)).map fun n : Nat => integer n := by
    induction items with
    | nil => rfl
    | cons item rest ih =>
        rw [List.map_cons, compactItems, ih]
        rfl
  simp only [Datum.ofSet, Datum.ofList, compact, hitems]

/-- Identifiers are known by their numbers, and a set by its elements in order. -/
private theorem ids_inj {kind : IdKind} {ids ids' : Std.ExtTreeSet (Id kind)}
    (h : ids.toList.map (·.number.toNat) = ids'.toList.map (·.number.toNat)) : ids = ids' := by
  have hinj : Function.Injective fun id : Id kind => id.number.toNat := by
    rintro ⟨a⟩ ⟨b⟩ hab
    exact congrArg Id.mk (UInt64.toNat_inj.mp hab)
  apply Std.ExtTreeSet.ext_toList
  rw [(List.map_inj_right fun _ _ hxy => hinj hxy).mp h]

/-- The text of a filter on a column: the kind of the filter, the column, and what is let
through, under a name of its own. -/
private def columnFilterText (filter column name : String) (numbers : List Nat) : List Char :=
  '\x7b' :: (quoted "filter" ++ ':' :: (quoted filter ++ ',' :: (quoted "column" ++ ':' ::
    (quoted column ++ ',' :: (quoted name ++ ':' :: '[' ::
      (separated [','] (numbers.map fun n : Nat => integer n) ++ ']' :: ['\x7d']))))))

private theorem compact_all :
    compact QueryScope.all.toDatum =
      '\x7b' :: (quoted "filter" ++ ':' :: (quoted "all" ++ ['\x7d'])) := rfl

private theorem compact_accountIn (column : String) (accounts : Std.ExtTreeSet AccountId) :
    compact (QueryScope.accountIn column accounts).toDatum =
      columnFilterText "account-in" column "accounts" (accounts.toList.map (·.number.toNat)) := by
  simp only [QueryScope.toDatum, compact, compactFields, separated, scalar, compact_ofSet,
    columnFilterText, List.cons_append, List.append_assoc, List.nil_append]

private theorem compact_hostIn (column : String) (hosts : Std.ExtTreeSet HostId) :
    compact (QueryScope.hostIn column hosts).toDatum =
      columnFilterText "host-in" column "hosts" (hosts.toList.map (·.number.toNat)) := by
  simp only [QueryScope.toDatum, compact, compactFields, separated, scalar, compact_ofSet,
    columnFilterText, List.cons_append, List.append_assoc, List.nil_append]

/-- The name of a filter's kind. -/
private def filterKind : QueryScope → String
  | .all => "all"
  | .accountIn .. => "account-in"
  | .hostIn .. => "host-in"

private theorem filter_inj {filter filter' : String} {rest rest' : List Char}
    (h : '\x7b' :: (quoted "filter" ++ ':' :: (quoted filter ++ rest)) =
      '\x7b' :: (quoted "filter" ++ ':' :: (quoted filter' ++ rest'))) :
    filter = filter' ∧ rest = rest' := by
  have hfilter := (quoted_append_inj (List.cons.inj h).2).2
  exact quoted_append_inj (List.cons.inj hfilter).2

/-- The kind of a filter can be read off the front of its text. -/
private theorem filterKind_eq_of_compact_eq {query query' : QueryScope}
    (h : compact query.toDatum = compact query'.toDatum) :
    filterKind query = filterKind query' := by
  have hfront (query : QueryScope) : ∃ rest, compact query.toDatum =
      '\x7b' :: (quoted "filter" ++ ':' :: (quoted (filterKind query) ++ rest)) := by
    cases query with
    | all => exact ⟨_, compact_all⟩
    | accountIn column accounts => exact ⟨_, compact_accountIn column accounts⟩
    | hostIn column hosts => exact ⟨_, compact_hostIn column hosts⟩
  obtain ⟨rest, hrest⟩ := hfront query
  obtain ⟨rest', hrest'⟩ := hfront query'
  rw [hrest, hrest'] at h
  exact (filter_inj h).1

private theorem columnFilterText_inj {filter column column' name : String}
    {numbers numbers' : List Nat}
    (h : columnFilterText filter column name numbers =
      columnFilterText filter column' name numbers') :
    column = column' ∧ numbers = numbers' := by
  have hcolumn := (List.cons.inj (filter_inj h).2).2
  have hvalue := (List.cons.inj (quoted_append_inj hcolumn).2).2
  obtain ⟨heq, hname⟩ := quoted_append_inj hvalue
  have hset := (List.cons.inj (quoted_append_inj (List.cons.inj hname).2).2).2
  exact ⟨heq, (numbers_append_inj (List.cons.inj hset).2).1⟩

/-- Filters with the same text are the same filter. -/
theorem query_eq_of_compact_eq {query query' : QueryScope}
    (h : compact query.toDatum = compact query'.toDatum) : query = query' := by
  have hkind := filterKind_eq_of_compact_eq h
  cases query with
  | all =>
      cases query' with
      | all => rfl
      | accountIn column' accounts' => simp [filterKind] at hkind
      | hostIn column' hosts' => simp [filterKind] at hkind
  | accountIn column accounts =>
      cases query' with
      | all => simp [filterKind] at hkind
      | accountIn column' accounts' =>
          rw [compact_accountIn, compact_accountIn] at h
          obtain ⟨rfl, hnumbers⟩ := columnFilterText_inj h
          rw [ids_inj hnumbers]
      | hostIn column' hosts' => simp [filterKind] at hkind
  | hostIn column hosts =>
      cases query' with
      | all => simp [filterKind] at hkind
      | accountIn column' accounts' => simp [filterKind] at hkind
      | hostIn column' hosts' =>
          rw [compact_hostIn, compact_hostIn] at h
          obtain ⟨rfl, hnumbers⟩ := columnFilterText_inj h
          rw [ids_inj hnumbers]

/-- A row count is kept for one table and one filter. -/
theorem rowCountKey_inj {table table' : String} {query query' : QueryScope}
    (h : rowCountKey table query = rowCountKey table' query') :
    table = table' ∧ query = query' := by
  injection h with hcls hsubject
  exact ⟨ResourceClass.rowCount.inj hcls,
    query_eq_of_compact_eq (String.ofList_injective hsubject)⟩

/-! ## Scopes -/

theorem Id.text_injective {kind : IdKind} : Function.Injective (Id.text : Id kind → String) := by
  rintro ⟨a⟩ ⟨b⟩ hab
  have hdigits : Nat.toDigits 10 a.toNat = Nat.toDigits 10 b.toNat := by
    rw [← Nat.toList_repr, ← Nat.toList_repr]
    exact congrArg String.toList hab
  have hvalue := congrArg (Nat.ofDigitChars 10 · 0) hdigits
  simp only [Nat.ofDigitChars_ten_toDigits] at hvalue
  exact congrArg Id.mk (UInt64.toNat_inj.mp hvalue)

/-- The option at the end of a key can be read off its back. -/
private theorem replication_inj {before before' : String} {flag flag' : Bool}
    (h : before ++ ":replication=" ++ (if flag then "true" else "false") =
      before' ++ ":replication=" ++ (if flag' then "true" else "false")) :
    before = before' ∧ flag = flag' := by
  cases flag <;> cases flag'
  · exact ⟨by simpa using h, rfl⟩
  · have hback := congrArg (·.toList.reverse) h
    simp [String.toList_append] at hback
  · have hback := congrArg (·.toList.reverse) h
    simp [String.toList_append] at hback
  · exact ⟨by simpa using h, rfl⟩

/-- A scope is kept for one account, or for one username and one choice of options. -/
theorem eq_of_scopeKey?_eq {identity identity' : Identity} {options options' : ScopeOptions}
    {key : CacheKey} (h : identity.scopeKey? options = some key)
    (h' : identity'.scopeKey? options' = some key) :
    (∃ username username' account,
        identity = .tenant username account ∧ identity' = .tenant username' account)
    ∨ (∃ username hosts permissions hosts' permissions',
        identity = .scopedOperator username hosts permissions
        ∧ identity' = .scopedOperator username hosts' permissions' ∧ options = options') := by
  rw [← h'] at h
  cases identity with
  | operator username => cases identity' <;> simp [Identity.scopeKey?] at h h'
  | scopedOperator username hosts permissions =>
      cases identity' with
      | operator username' => simp [Identity.scopeKey?] at h
      | scopedOperator username' hosts' permissions' =>
          simp only [Identity.scopeKey?, Identity.cacheSubject, Option.some.injEq,
            CacheKey.mk.injEq, true_and] at h
          obtain ⟨hsubject, hoptions⟩ := replication_inj h
          obtain rfl := (String.append_right_inj "scoped:").mp hsubject
          cases options
          cases options'
          obtain rfl := hoptions
          exact .inr ⟨_, _, _, _, _, rfl, rfl, rfl⟩
      | tenant username' account' => simp [Identity.scopeKey?] at h
  | tenant username account =>
      cases identity' with
      | operator username' => simp [Identity.scopeKey?] at h
      | scopedOperator username' hosts' permissions' => simp [Identity.scopeKey?] at h
      | tenant username' account' =>
          simp only [Identity.scopeKey?, Identity.cacheSubject, Option.some.injEq,
            CacheKey.mk.injEq, true_and] at h
          obtain rfl := Id.text_injective ((String.append_right_inj "tenant:").mp h)
          exact .inl ⟨_, _, _, rfl, rfl⟩

end ControlPlane
