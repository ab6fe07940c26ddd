import ServiceScaffold.Proofs.FileTree.Listing
import ServiceScaffold.Proofs.Service.Discovery
import ServiceScaffold.Proofs.Text.Bytes
import ServiceScaffold.Proofs.Text.Occurrence

/-! # The service files of a directory

The discovered names are exactly the accepted ones among the regular files directly in the directory, in
the order of their bytes. There is one such list, so it does not matter in which order the directory is
listed.
-/

namespace ServiceScaffold.ServiceFilter

variable {filter : ServiceFilter} {dir : Path} {names others : List Text} {name : Text}
variable {world other : World} {location : Location} {listing : List (Text × Entry)} {tree : FileTree}

theorem accepts_iff : filter.accepts name = true ↔
    sourceSuffix <:+ name ∧ filter.marker <:+: name ∧ ∀ part ∈ filter.exclude, ¬ part <:+: name := by
  simp only [accepts, Bool.and_eq_true, Bool.not_eq_true', List.any_eq_false, Text.occursIn_iff,
    List.isSuffixOf_iff_suffix, and_assoc]

theorem discover_of_find (hfind : world.tree.find dir = .ok (location, .dir)) :
    filter.discover dir world = .ok (filter.select (world.tree.children location)) world := by
  have hdir : world.tree.isDir dir = true := FileTree.isDir_iff.mpr ⟨location, hfind⟩
  have hlook : Run.look (.read dir) (fun tree => tree.list dir) world =
      .ok (world.tree.children location) world := by
    rw [Run.look_eq_ok_iff, FileTree.list, hfind]
    exact ⟨rfl, rfl⟩
  refine (Run.bind_of_ok rfl _).trans ?_
  rw [if_pos hdir]
  exact Run.bind_of_ok hlook _

theorem discover_of_not_isDir (hdir : world.tree.isDir dir = false) :
    filter.discover dir world = .ok [] world := by
  refine (Run.bind_of_ok rfl _).trans ?_
  rw [hdir, if_neg Bool.false_ne_true]
  rfl

/-- The names are the accepted ones among the regular files directly in the directory, each once and in
the order of their bytes. -/
structure Lists (filter : ServiceFilter) (tree : FileTree) (dir : Path) (names : List Text) : Prop where
  increasing : names.Pairwise fun first second => Text.utf8 first < Text.utf8 second
  mem_iff : ∀ name, name ∈ names ↔
    (∃ location content, tree.find dir = .ok (location, .dir) ∧
      tree.entry? (location ++ [name]) = some (.file content)) ∧
    sourceSuffix <:+ name ∧ filter.marker <:+: name ∧ ∀ part ∈ filter.exclude, ¬ part <:+: name

theorem Lists.nodup (hlists : filter.Lists tree dir names) : names.Nodup :=
  hlists.increasing.imp fun hlt heq => (Text.utf8_lt_iff.mp hlt).2 heq

/-- What is in the list decides the list. -/
theorem Lists.unique (hlists : filter.Lists tree dir names) (hothers : filter.Lists tree dir others) :
    names = others := by
  refine List.Perm.eq_of_pairwise (fun first second _ _ hlt hgt => ?_) hlists.increasing
    hothers.increasing ?_
  · exact absurd hgt (List.lt_asymm hlt)
  · refine (List.perm_ext_iff_of_nodup hlists.nodup hothers.nodup).mpr fun name => ?_
    rw [hlists.mem_iff, hothers.mem_iff]

theorem nodup_select (hnodup : (listing.map Prod.fst).Nodup) : (filter.select listing).Nodup := by
  rw [select, (Text.perm_inOrder _).nodup_iff]
  exact hnodup.sublist (List.filter_sublist.map Prod.fst)

theorem increasing_select (hnodup : (listing.map Prod.fst).Nodup) :
    (filter.select listing).Pairwise fun first second => Text.utf8 first < Text.utf8 second :=
  (pairwise_select filter listing).imp₂ (fun _ _ hble hne => Text.utf8_lt_iff.mpr ⟨hble, hne⟩)
    (nodup_select hnodup)

theorem lists_select (hformed : tree.WellFormed) (hfind : tree.find dir = .ok (location, .dir)) :
    filter.Lists tree dir (filter.select (tree.children location)) where
  increasing := increasing_select (hformed.nodup_children location)
  mem_iff := by
    intro name
    rw [mem_select_iff, hfind, ← accepts_iff]
    constructor
    · rintro ⟨entry, hmem, hfile, haccepts⟩
      cases entry with
      | file content => exact ⟨⟨location, content, rfl, hformed.mem_children_iff.mp hmem⟩, haccepts⟩
      | _ => cases hfile
    · rintro ⟨⟨place, content, ⟨⟩, hentry⟩, haccepts⟩
      exact ⟨.file content, hformed.mem_children_iff.mpr hentry, rfl, haccepts⟩

theorem lists_nil (hdir : tree.isDir dir = false) : filter.Lists tree dir [] where
  increasing := .nil
  mem_iff := by
    intro name
    refine iff_of_false List.not_mem_nil ?_
    rintro ⟨⟨location, content, hfind, -⟩, -⟩
    rw [FileTree.isDir_iff.mpr ⟨location, hfind⟩] at hdir
    cases hdir

theorem exists_discover (hformed : world.tree.WellFormed) (filter : ServiceFilter) (dir : Path) :
    ∃ names, filter.discover dir world = .ok names world ∧ filter.Lists world.tree dir names := by
  cases hdir : world.tree.isDir dir with
  | false => exact ⟨[], discover_of_not_isDir hdir, lists_nil hdir⟩
  | true =>
      obtain ⟨location, hfind⟩ := FileTree.isDir_iff.mp hdir
      exact ⟨_, discover_of_find hfind, lists_select hformed hfind⟩

theorem Lists.relisted {other : FileTree} (hlists : filter.Lists tree dir names)
    (hformed : tree.WellFormed) (hrelisted : tree.Relisted other) : filter.Lists other dir names where
  increasing := hlists.increasing
  mem_iff := by
    intro name
    simp only [hlists.mem_iff, hrelisted.find_eq_ok_iff hformed, hrelisted.entry?_eq hformed]

/-- Discovery always ends with a list and changes nothing. The list holds exactly the accepted names of
regular files directly in the directory and is strictly increasing by bytes, and there is no other such
list. So it is the same in whatever order the disk is listed. -/
theorem discover_exact (hformed : world.tree.WellFormed) (filter : ServiceFilter) (dir : Path) :
    ∃ names, filter.discover dir world = .ok names world ∧ filter.Lists world.tree dir names ∧
      names.Nodup ∧ (∀ others, filter.Lists world.tree dir others → others = names) ∧
      ∀ other : World, world.tree.Relisted other.tree →
        filter.discover dir other = .ok names other := by
  obtain ⟨names, hdiscover, hlists⟩ := exists_discover hformed filter dir
  refine ⟨names, hdiscover, hlists, hlists.nodup, fun others hothers => hothers.unique hlists,
    fun other hrelisted => ?_⟩
  obtain ⟨others, hother, hothers⟩ := exists_discover (hrelisted.wellFormed hformed) filter dir
  rwa [hothers.unique (hlists.relisted hformed hrelisted)] at hother

/-- A directory with two services among a module, a text, a directory with a service in it, and a link to
a service. -/
def mixedDirectory : FileTree :=
  ⟨[], [(["s"], .dir), (["s", "user.service.ts"], .file (.text [])), (["s", "api.ts"], .file (.text [])),
    (["s", "README.md"], .file (.text [])), (["s", "nested.service.ts"], .dir),
    (["s", "nested.service.ts", "in.service.ts"], .file (.text [])),
    (["s", "link.service.ts"], .link "pet.service.ts"), (["s", "pet.service.ts"], .file (.text []))]⟩

theorem discover_exact_mixedDirectory :
    mixedDirectory.WellFormed ∧
      mixedDirectory.Relisted ⟨[], mixedDirectory.entries.reverse⟩ ∧
      ({} : ServiceFilter).Lists mixedDirectory "s" ["pet.service.ts", "user.service.ts"] ∧
      ({} : ServiceFilter).discover "s" (.ofTree ⟨[], mixedDirectory.entries.reverse⟩) =
        .ok ["pet.service.ts", "user.service.ts"] (.ofTree ⟨[], mixedDirectory.entries.reverse⟩) := by
  have hformed : (World.ofTree mixedDirectory).tree.WellFormed := by decide +kernel
  have hrelisted : mixedDirectory.Relisted ⟨[], mixedDirectory.entries.reverse⟩ :=
    ⟨rfl, List.reverse_perm _⟩
  have hevaluated : Run.endsIn
      (fun names _ => names = ["pet.service.ts".toList, "user.service.ts".toList])
      (({} : ServiceFilter).discover "s" (.ofTree mixedDirectory)) = true := by
    decide +kernel
  obtain ⟨names, hdiscover, hlists, -, -, hother⟩ := discover_exact hformed {} "s"
  rw [hdiscover] at hevaluated
  obtain rfl := of_decide_eq_true hevaluated
  exact ⟨hformed, hrelisted, hlists, hother (.ofTree _) hrelisted⟩

end ServiceScaffold.ServiceFilter
