import RouterConsole.Proofs.Config.RouteBlock

/-!
# The blocks of an accepted text

The path of a block is read only as the front of the paths that are completed inside the block. So
an accepted text names nothing that the grammar does not know in a block in which something is said,
and may name anything in a block in which nothing is.
-/
namespace RouterConsole.Config

/-! ## Accepted texts -/

/-- A text is accepted exactly if it is read to its end and all its paths are of the grammar. -/
theorem accepted_iff {format : Format} {names : List String} {text : String} :
    (∃ ds, parse format names text = .ok ds) ↔ (readPaths format text).fault = none ∧
      ∀ path ∈ (readPaths format text).paths, ∃ d?, PathAsks names path d? := by
  simp only [← interpret_eq_ok_iff]
  rw [← exists_mapM_eq_ok_iff]
  unfold parse
  dsimp only
  cases (readPaths format text).paths.mapM (interpret names) with
  | error e => simp
  | ok ds => cases (readPaths format text).fault <;> simp

/-! ## What is said in a block -/

/-- The paths that lines complete until fewer than the given number of blocks are open. -/
def saidWithin (depth : Nat) (stack : List Block) : List (List Token) → List (List Token)
  | [] => []
  | l :: ls =>
    match readLine stack l with
    | .error _ => []
    | .ok (stack', path) =>
      path.toList ++ if stack'.length < depth then [] else saidWithin depth stack' ls

/-- A block that was opened, and the paths that were completed before it was closed. -/
structure Opened where
  block : Block
  said : List (List Token)
  deriving DecidableEq

/-- The blocks that lines open inside the given ones, in order. -/
def openedBlocks (stack : List Block) : List (List Token) → List Opened
  | [] => []
  | l :: ls =>
    match readLine stack l with
    | .error _ => []
    | .ok (stack', _) =>
      let behind := openedBlocks stack' ls
      match stack' with
      | [] => behind
      | b :: _ =>
        if stack.length < stack'.length then ⟨b, saidWithin stack'.length stack' ls⟩ :: behind
        else behind

/-- What a line does above some open blocks keeps to the paths of the blocks that are above them. -/
theorem LineRead.inside {l : List Token} {p : List Token} {inner outer stack' : List Block}
    {path : Option (List Token)} (h : LineRead l (inner ++ outer) stack' path) (hne : inner ≠ [])
    (hin : ∀ b ∈ inner, p <+: b.path) :
    (∀ q, path = some q → p <+: q) ∧
      ∃ inner', stack' = inner' ++ outer ∧ ∀ b ∈ inner', p <+: b.path := by
  obtain ⟨b, inner, rfl⟩ := List.exists_cons_of_ne_nil hne
  have hb : p <+: b.path := hin b List.mem_cons_self
  have htail : ∀ c ∈ inner, p <+: c.path := fun c hc => hin c (List.mem_cons_of_mem b hc)
  generalize hstack : b :: inner ++ outer = stack at h
  have hcurrent : currentPath stack = b.path := by rw [← hstack]; rfl
  cases h with
  | closeRoute _ _ reads =>
    obtain ⟨rfl, rfl⟩ := List.cons.inj hstack
    obtain ⟨target, -, rfl⟩ := routePath_eq_ok_iff.mp reads
    refine ⟨fun q hq => ?_, inner, rfl, htail⟩
    obtain rfl := Option.some.inj hq
    rw [List.append_assoc]
    exact hb.trans (List.prefix_append _ _)
  | close =>
    obtain ⟨rfl, rfl⟩ := List.cons.inj hstack
    exact ⟨nofun, inner, rfl, htail⟩
  | @opens brace words =>
    refine ⟨nofun, ⟨brace, currentPath stack ++ words, []⟩ :: b :: inner, by rw [← hstack]; rfl, ?_⟩
    intro c hc
    rcases List.mem_cons.mp hc with rfl | hc
    · exact hcurrent ▸ hb.trans (List.prefix_append _ _)
    · exact hin c hc
  | child =>
    obtain ⟨rfl, rfl⟩ := List.cons.inj hstack
    refine ⟨nofun, _ :: inner, rfl, fun c hc => ?_⟩
    rcases List.mem_cons.mp hc with rfl | hc
    · exact hb
    · exact htail c hc
  | leaf =>
    refine ⟨fun q hq => ?_, b :: inner, hstack.symm, hin⟩
    obtain rfl := Option.some.inj hq
    exact hcurrent ▸ hb.trans (List.prefix_append _ _)

/-- What is said within some open blocks starts with what their paths start with. -/
theorem prefix_of_mem_saidWithin {p : List Token} {outer : List Block} {ls : List (List Token)}
    {inner : List Block} (hne : inner ≠ []) (hin : ∀ b ∈ inner, p <+: b.path) {path : List Token}
    (h : path ∈ saidWithin (outer.length + 1) (inner ++ outer) ls) : p <+: path := by
  induction ls generalizing inner with
  | nil => cases h
  | cons l ls ih =>
    unfold saidWithin at h
    cases hread : readLine (inner ++ outer) l with
    | error e =>
      rw [hread] at h
      cases h
    | ok next =>
      obtain ⟨stack', path?⟩ := next
      obtain ⟨hpath, inner', rfl, hin'⟩ :=
        ((readLine_ends _ _).of_ok hread).inside hne hin
      rw [hread] at h
      rcases List.mem_append.mp h with h | h
      · exact hpath path (Option.mem_toList.mp h)
      · split at h
        · cases h
        · rename_i hdepth
          refine ih ?_ hin' h
          rintro rfl
          simp at hdepth

theorem mem_paths_of_mem_saidWithin {depth : Nat} {ls : List (List Token)} {stack : List Block}
    {path : List Token} (h : path ∈ saidWithin depth stack ls) :
    path ∈ (blockPaths stack ls).paths := by
  induction ls generalizing stack with
  | nil => cases h
  | cons l ls ih =>
    unfold saidWithin at h
    unfold blockPaths
    cases hread : readLine stack l with
    | error e =>
      rw [hread] at h
      cases h
    | ok next =>
      rw [hread] at h
      rcases List.mem_append.mp h with h | h
      · exact List.mem_append_left _ h
      · split at h
        · cases h
        · exact List.mem_append_right _ (ih h)

/-- What is said in an opened block is a path of the lines that starts with the path of the
block. -/
theorem said_of_mem_openedBlocks {ls : List (List Token)} {stack : List Block} {opened : Opened}
    (h : opened ∈ openedBlocks stack ls) {path : List Token} (hp : path ∈ opened.said) :
    opened.block.path <+: path ∧ path ∈ (blockPaths stack ls).paths := by
  induction ls generalizing stack with
  | nil => cases h
  | cons l ls ih =>
    unfold openedBlocks at h
    unfold blockPaths
    cases hread : readLine stack l with
    | error e =>
      rw [hread] at h
      cases h
    | ok next =>
      obtain ⟨stack', path?⟩ := next
      rw [hread] at h
      have hbehind : opened ∈ openedBlocks stack' ls → opened.block.path <+: path ∧
          path ∈ ((blockPaths stack' ls).after path?).paths := fun h =>
        ⟨(ih h).1, List.mem_append_right _ (ih h).2⟩
      cases stack' with
      | nil => exact hbehind h
      | cons b outer =>
        dsimp only at h
        split at h
        · rename_i hlength
          rcases List.mem_cons.mp h with rfl | h
          · have hself : ∀ c ∈ [b], b.path <+: c.path := by simp
            exact ⟨prefix_of_mem_saidWithin (List.cons_ne_nil b []) hself hp,
              List.mem_append_right _ (mem_paths_of_mem_saidWithin hp)⟩
          · exact hbehind h
        · exact hbehind h

/-- What the front of a path of the grammar says: an interface that it names is there, and a
destination is a network. -/
theorem PathAsks.front {names : List String} {front path : List Token} {d? : Option Directive}
    (h : PathAsks names path d?) (hf : front <+: path) :
    (∀ n rest, values front = "interfaces" :: "ethernet" :: n :: rest → n ∈ names) ∧
      ∀ d rest, values front = "protocols" :: "static" :: "route" :: d :: rest →
        ∃ destination, Value.network d = .ok destination := by
  obtain ⟨behind, rfl⟩ := hf
  constructor
  · intro n rest hv
    have hpath : values (front ++ behind) =
        "interfaces" :: "ethernet" :: n :: (rest ++ values behind) := by
      rw [values_append, hv]
      rfl
    obtain ⟨last, hiff⟩ := pathAsks_interface_iff names hpath
    exact ((hiff d?).mp h).1
  · intro d rest hv
    have hpath : values (front ++ behind) =
        "protocols" :: "static" :: "route" :: d :: (rest ++ values behind) := by
      rw [values_append, hv]
      rfl
    obtain ⟨value, -, hiff⟩ := pathAsks_route_iff names hpath
    obtain ⟨_, _, destination, _, _, -, hd, -⟩ := (hiff d?).mp h
    exact ⟨destination, hd⟩

/-- In an accepted text every path that is completed is of the grammar. So the path of a block in
which something is said is the front of such a path: the interface that it names is there, and its
destination is a network. A block with nothing in it is passed over, whatever its path is. -/
theorem blocks_with_content_are_known {names : List String} {text : String} {ds : List Directive}
    (h : parse .hierarchical names text = .ok ds) :
    (∀ path ∈ (readPaths .hierarchical text).paths, ∃ d?, PathAsks names path d?) ∧
      (∀ opened ∈ openedBlocks [] (tokenize text), opened.said ≠ [] →
        (∃ path ∈ opened.said, opened.block.path <+: path ∧ ∃ d?, PathAsks names path d?) ∧
        (∀ n rest, values opened.block.path = "interfaces" :: "ethernet" :: n :: rest →
          n ∈ names) ∧
        ∀ d rest, values opened.block.path = "protocols" :: "static" :: "route" :: d :: rest →
          ∃ destination, Value.network d = .ok destination) ∧
      ∀ stack opener b close rest, readLine stack opener = .ok (b :: stack, none) →
        b.isRoute = false → values close = ["\x7d"] →
        blockPaths stack (opener :: close :: rest) = blockPaths stack rest := by
  have hasked := (accepted_iff.mp ⟨ds, h⟩).2
  refine ⟨hasked, fun opened hopened hsaid => ?_, ?_⟩
  · obtain ⟨path, paths, hpaths⟩ := List.exists_cons_of_ne_nil hsaid
    have hp : path ∈ opened.said := hpaths ▸ List.mem_cons_self
    obtain ⟨hfront, hmem⟩ := said_of_mem_openedBlocks hopened hp
    obtain ⟨d?, hd⟩ := hasked path hmem
    obtain ⟨hinterface, hroute⟩ := hd.front hfront
    exact ⟨⟨path, hp, hfront, d?, hd⟩, hinterface, hroute⟩
  · intro stack opener b close rest hopen hb hclose
    have hclosed := readLine_close hclose b stack
    rw [hb, if_neg Bool.false_ne_true] at hclosed
    rw [blockPaths_cons hopen, blockPaths_cons hclosed]
    rfl

/-- Of two interfaces with a block, the one that has something in it must be there. -/
theorem blocks_with_content_are_known_of_two_interfaces :
    let text :=
      "interfaces \x7b\n ethernet eth0 \x7b\n  disable\n \x7d\n ethernet eth9 \x7b\n \x7d\n\x7d\n"
    (∃ ds, parse .hierarchical ["eth0"] text = .ok ds ∧ ds.length = 1) ∧
      ∃ opened ∈ openedBlocks [] (tokenize text),
        values opened.block.path = ["interfaces", "ethernet", "eth0"] ∧
        ∃ path ∈ opened.said, opened.block.path <+: path ∧ ∃ d?, PathAsks ["eth0"] path d? := by
  intro text
  have hlength : (parse .hierarchical ["eth0"] text).toOption.map List.length = some 1 := by
    decide +kernel
  obtain ⟨ds, hds, hlength⟩ := Option.map_eq_some_iff.mp hlength
  have hparse := eq_ok_of_toOption hds
  have hopened : (openedBlocks [] (tokenize text)).map
      (fun opened => (values opened.block.path, opened.said.length)) =
        [(["interfaces"], 1), (["interfaces", "ethernet", "eth0"], 1),
          (["interfaces", "ethernet", "eth9"], 0)] := by decide +kernel
  obtain ⟨opened, hmem, hpath⟩ : ∃ opened ∈ openedBlocks [] (tokenize text),
      (values opened.block.path, opened.said.length) =
        (["interfaces", "ethernet", "eth0"], 1) := by
    rw [← List.mem_map, hopened]
    decide
  obtain ⟨hvalues, hsaid⟩ := Prod.mk.inj hpath
  have hne : opened.said ≠ [] := List.length_pos_iff.mp (by omega)
  exact ⟨⟨ds, hparse, hlength⟩, opened, hmem, hvalues,
    ((blocks_with_content_are_known hparse).2.1 opened hmem hne).1⟩

/-- Not every block of an accepted text has a path that some path of the grammar starts with: an
interface that is not there may have a block with nothing in it. -/
theorem empty_block_of_unknown_interface :
    ¬∀ (names : List String) (text : String) (ds : List Directive),
      parse .hierarchical names text = .ok ds → ∀ opened ∈ openedBlocks [] (tokenize text),
        ∃ path d?, opened.block.path <+: path ∧ PathAsks names path d? := by
  intro hall
  let text := "interfaces \x7b\n    ethernet eth9 \x7b\n    \x7d\n\x7d\n"
  have hparse : parse .hierarchical ["eth0", "lo"] text = .ok [] :=
    eq_ok_of_toOption (by decide +kernel)
  have hopened : (openedBlocks [] (tokenize text)).map (fun opened => values opened.block.path) =
      [["interfaces"], ["interfaces", "ethernet", "eth9"]] := by decide +kernel
  obtain ⟨opened, hmem, hpath⟩ : ∃ opened ∈ openedBlocks [] (tokenize text),
      values opened.block.path = ["interfaces", "ethernet", "eth9"] := by
    rw [← List.mem_map, hopened]
    decide
  obtain ⟨path, d?, hfront, hasks⟩ := hall _ text [] hparse opened hmem
  exact absurd ((hasks.front hfront).1 "eth9" [] hpath) (by decide)

end RouterConsole.Config
