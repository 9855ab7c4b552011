import EntityScripting.Proofs.Script.Leading
import EntityScripting.Proofs.Script.Namespace
import EntityScripting.Proofs.Script.Transparency

/-!
# What the list functions find

`foreach`, `filter`, `pick` and `values` take a list by what the table itself holds. They go through the
items of a plain table in order (`treats_of_lists`), and find nothing in a view, whatever a script reads
from it.
-/

namespace EntityScripting.Script

open Relation Text

/-- Whether entries are a list without a gap, perhaps with other keys beside it. -/
structure Entries.Lists (entries : Entries) (items : List Value) : Prop where
  border : entries.border = items.length
  item : ∀ i (h : i < items.length), entries.at (.ofNat (i + 1)) = items[i]
  stop : entries.at (.ofNat (items.length + 1)) = .nil
  present : ∀ v ∈ items, v ≠ .nil

structure Heap.Shows (heap : Heap) (t : TableId) (items : List Value) : Prop where
  length : heap.length t = items.length
  item : ∀ i (h : i < items.length), heap.get t (.ofNat (i + 1)) = items[i]
  stop : heap.get t (.ofNat (items.length + 1)) = .nil
  present : ∀ v ∈ items, v ≠ .nil

theorem Entries.lists_empty : Entries.Lists {} [] := ⟨rfl, by simp, rfl, by simp⟩

theorem Entries.Lists.mapValues {entries : Entries} {items : List Value} (lists : entries.Lists items)
    {f : Value → Value} (nil : ∀ v, f v = .nil ↔ v = .nil) :
    Entries.Lists (entries.mapValues f) (items.map f) where
  border := by rw [border_mapValues, lists.border, List.length_map]
  item i h := by
    rw [at_mapValues ((nil _).mpr rfl), lists.item i (by simpa using h), List.getElem_map]
  stop := by rw [List.length_map, at_mapValues ((nil _).mpr rfl), lists.stop, (nil _).mpr rfl]
  present v member := by
    obtain ⟨w, listed, rfl⟩ := List.mem_map.mp member
    exact (nil w).not.mpr (lists.present w listed)

variable {σ : Type} (turns : Nat) (perform : Performer σ)

/-- Calls of a function for items one after another, each with what it returns, that leave a table
alone. -/
inductive Visits (callee : Callee) (trace : Trace) (t : TableId) :
    World σ → List (Value × List Value) → World σ → Prop
  | nil (world : World σ) : Visits callee trace t world [] world
  | cons {world next last : World σ} {item : Value} {results : List Value}
      {rest : List (Value × List Value)} :
    Comes turns perform (.function callee) [item] (none :: trace) world (.ok results) next →
    next.heap.table? t = world.heap.table? t → Visits callee trace t next rest last →
    Visits callee trace t world ((item, results) :: rest) last

def kept (visits : List (Value × List Value)) : List Value :=
  (visits.filter fun visit => (visit.2.headD .nil).isTrue).map Prod.fst

/-- Whether the list functions take a table for a list of some items, as long as nothing that is called
or done in between changes the table itself. -/
structure Treats (world : World σ) (t : TableId) (items : List Value) : Prop where
  /-- The function is called for all items in order. -/
  foreach : ∀ {callee trace visits last}, Visits turns perform callee trace t world visits last →
    visits.map Prod.fst = items →
    Comes turns perform (.builtin (.engine .foreach)) [.table t, .function callee] trace world
      (.ok []) last
  /-- A new table has the items that are kept, in order, and their number is given too. -/
  filter : ∀ {callee trace visits last}, Visits turns perform callee trace t world visits last →
    visits.map Prod.fst = items →
    Comes turns perform (.builtin (.engine .filter)) [.table t, .function callee] trace world
      (.ok [.table last.heap.tables.size, .ofNat (kept visits).length])
      ⟨last.state, (last.heap.newTable (.plain (.withItems {} (kept visits)))).2⟩
  /-- An error of the function ends both and comes back as one of the engine. -/
  stops : ∀ {f callee trace visits item rest later e cause next last},
    f = .foreach ∨ f = .filter → Visits turns perform callee trace t world visits later →
    visits.map Prod.fst ++ item :: rest = items →
    Comes turns perform (.function callee) [item] (none :: trace) later (.error e) next →
    Leads turns perform e.toCause next (pure cause) last →
    Comes turns perform (.builtin (.engine f)) [.table t, .function callee] trace world
      (.error (.userdata (.fault cause) last.heap.nextIdentity))
      ⟨last.state, { last.heap with nextIdentity := last.heap.nextIdentity + 1 }⟩
  /-- One item is picked by chance. -/
  pick : ∀ {n next} trace (h : n < items.length),
    perform (.draw items.length) world = some (n, next) →
    next.heap.table? t = world.heap.table? t →
    Comes turns perform (.builtin (.engine .pick)) [.table t] trace world (.ok [items[n]]) next
  pick_nil : ∀ trace, items = [] →
    Comes turns perform (.builtin (.engine .pick)) [.table t] trace world (.ok [.nil]) world
  /-- An iteration begins in front of the first item. -/
  values : ∀ trace, Comes turns perform (.builtin (.engine .values)) [.table t] trace world
    (.ok [.function (.cursor world.heap.cursors.size)])
    ⟨world.state, (world.heap.newCursor t).2⟩
  /-- It goes from one item to the next, and gives nil after the last one. -/
  advance : ∀ (later : World σ) {cursor position} args trace,
    later.heap.table? t = world.heap.table? t →
    later.heap.cursors[cursor]? = some ⟨t, position⟩ → position ≤ items.length →
    Comes turns perform (.function (.cursor cursor)) args trace later
        (.ok [(items[position]?).getD .nil]) ⟨later.state, (later.heap.advance cursor).2⟩ ∧
      (later.heap.advance cursor).2.cursors[cursor]? = some ⟨t, position + 1⟩

section

variable {turns : Nat} {perform : Performer σ} {callee : Callee} {t : TableId}
  {world next later last : World σ} {items : List Value} {item : Value}

theorem leads_read (lists : (world.heap.entries t).Lists items) {i : Nat} (h : i < items.length) :
    Leads turns perform (Activity.access (.rawGet t (.ofNat (i + 1)))) world (pure items[i]) world := by
  rw [← lists.item i h]
  exact .access (.rawGet t (.ofNat (i + 1))) world

theorem leads_item {done rest : List Value}
    (lists : (world.heap.entries t).Lists (done ++ item :: rest)) :
    Leads turns perform (Activity.access (.rawGet t (.ofNat (done.length + 1)))) world (pure item)
      world := by
  have inside : done.length < (done ++ item :: rest).length := by simp
  have there : (done ++ item :: rest)[done.length] = item := by
    rw [List.getElem_append_right (Nat.le_refl _)]
    simp
  have read : Leads turns perform (Activity.access (.rawGet t (.ofNat (done.length + 1)))) world
      (pure (done ++ item :: rest)[done.length]) world := leads_read lists inside
  rwa [there] at read

theorem leads_callScript {call : Invocation} {callee : Value} {args results : List Value}
    (comes : Comes turns perform callee args (none :: call.trace) world (.ok results) next) :
    Leads turns perform (call.callScript callee args) world (pure results) next :=
  (Leads.guard comes).bind _

theorem leads_callScript_error {call : Invocation} {callee e : Value} {args : List Value}
    {cause : Cause}
    (comes : Comes turns perform callee args (none :: call.trace) world (.error e) next)
    (causes : Leads turns perform e.toCause next (pure cause) last) :
    Leads turns perform (call.callScript callee args) world
      (Activity.raise (.userdata (.fault cause) last.heap.nextIdentity))
      ⟨last.state, { last.heap with nextIdentity := last.heap.nextIdentity + 1 }⟩ :=
  ((Leads.guard comes).bind _).trans ((causes.bind _).trans (.refuse cause last))

/-- `foreach` does what `filter` does, but for the result. -/
theorem visit_eq_keep (call : Invocation) (t : TableId) (callee : Value) (count position : Nat) :
    EngineFunction.visit call t callee count position =
      EngineFunction.keep call t callee count position >>= fun _ => pure () := by
  induction count generalizing position with
  | zero => rfl
  | succ count ih =>
    unfold EngineFunction.visit
    simp only [ih]
    rfl

/-- The calls for the items at some positions, and what is kept of these. -/
theorem Visits.leads_keep {call : Invocation} {visits : List (Value × List Value)}
    (made : Visits turns perform callee call.trace t world visits last) (done rest : List Value)
    (lists : (world.heap.entries t).Lists (done ++ (visits.map Prod.fst ++ rest))) (more : Nat) :
    (last.heap.entries t).Lists (done ++ (visits.map Prod.fst ++ rest)) ∧
    Leads turns perform
      (EngineFunction.keep call t (.function callee) (visits.length + more) (done.length + 1)) world
      (EngineFunction.keep call t (.function callee) more (done.length + visits.length + 1) >>=
        fun others => pure (kept visits ++ others)) last := by
  induction made generalizing done with
  | nil world =>
    rw [List.length_nil, Nat.zero_add]
    exact ⟨lists, .refl _ _⟩
  | @cons world next last item results visits comes alone _ ih =>
    have same : (next.heap.entries t).Lists (done ++ [item] ++ (visits.map Prod.fst ++ rest)) := by
      rw [Heap.entries_congr alone]
      simpa using lists
    obtain ⟨lists', later⟩ := ih _ same
    have first : Leads turns perform
        (EngineFunction.keep call t (.function callee) (visits.length + more + 1) (done.length + 1))
        world
        (EngineFunction.keep call t (.function callee) (visits.length + more) (done.length + 2) >>=
          fun others => pure (if (results.headD .nil).isTrue then item :: others else others))
        next :=
      ((leads_item lists).bind _).trans ((leads_callScript comes).bind _)
    have all (others : List Value) : kept ((item, results) :: visits) ++ others =
        if (results.headD .nil).isTrue then item :: (kept visits ++ others)
        else kept visits ++ others := by
      simp only [kept, List.filter_cons]
      split <;> rfl
    refine ⟨by simpa using lists', ?_⟩
    rw [List.length_append, List.length_singleton] at later
    rw [List.length_cons, Nat.add_right_comm, show done.length + (visits.length + 1) + 1 =
      done.length + 1 + visits.length + 1 by omega]
    simp only [all]
    exact first.trans (later.bind _)

/-! ### The list functions -/

theorem leads_length (lists : (world.heap.entries t).Lists items) :
    Leads turns perform (Activity.access (.rawLength t)) world (pure items.length) world := by
  have border : world.heap.rawLength t = items.length := lists.border
  rw [← border]
  exact .access (.rawLength t) world

/-- Calls for the first items of a list. -/
theorem Visits.leads_list {call : Invocation} {visits : List (Value × List Value)} {rest : List Value}
    (made : Visits turns perform callee call.trace t world visits last)
    (lists : (world.heap.entries t).Lists items) (all : visits.map Prod.fst ++ rest = items) :
    Leads turns perform (EngineFunction.keep call t (.function callee) items.length 1) world
      (EngineFunction.keep call t (.function callee) rest.length (visits.length + 1) >>=
        fun others => pure (kept visits ++ others)) last ∧
    (last.heap.entries t).Lists items := by
  subst all
  obtain ⟨lists', leads⟩ := made.leads_keep [] rest lists rest.length
  rw [List.length_nil, Nat.zero_add, Nat.zero_add] at leads
  rw [List.length_append, List.length_map]
  exact ⟨leads, lists'⟩

/-- Calls for all items of a list. -/
theorem Visits.leads_all {call : Invocation} {visits : List (Value × List Value)}
    (made : Visits turns perform callee call.trace t world visits last)
    (lists : (world.heap.entries t).Lists items) (all : visits.map Prod.fst = items) :
    Leads turns perform (EngineFunction.keep call t (.function callee) items.length 1) world
      (pure (kept visits)) last := by
  obtain ⟨leads, -⟩ := made.leads_list lists ((List.append_nil _).trans all)
  rw [← List.append_nil (kept visits)]
  exact leads

/-- Calls for the first items of a list, and one that raises an error. -/
theorem Visits.leads_error {call : Invocation} {visits : List (Value × List Value)}
    {rest : List Value} {later : World σ} {e : Value} {cause : Cause}
    (made : Visits turns perform callee call.trace t world visits later)
    (lists : (world.heap.entries t).Lists items) (all : visits.map Prod.fst ++ item :: rest = items)
    (raised : Comes turns perform (.function callee) [item] (none :: call.trace) later (.error e) next)
    (causes : Leads turns perform e.toCause next (pure cause) last) :
    Leads turns perform (EngineFunction.keep call t (.function callee) items.length 1) world
      (Activity.raise (.userdata (.fault cause) last.heap.nextIdentity))
      ⟨last.state, { last.heap with nextIdentity := last.heap.nextIdentity + 1 }⟩ := by
  obtain ⟨leads, lists'⟩ := made.leads_list lists all
  have read : Leads turns perform (Activity.access (.rawGet t (.ofNat (visits.length + 1)))) later
      (pure item) later := by
    have count : (visits.map Prod.fst).length = visits.length := List.length_map _
    rw [← count]
    exact leads_item (all ▸ lists')
  have stopped : Leads turns perform
      (EngineFunction.keep call t (.function callee) (item :: rest).length (visits.length + 1)) later
      (Activity.raise (.userdata (.fault cause) last.heap.nextIdentity))
      ⟨last.state, { last.heap with nextIdentity := last.heap.nextIdentity + 1 }⟩ :=
    (read.bind _).trans ((leads_callScript_error raised causes).bind _)
  exact leads.trans (stopped.bind _)

/-- A call of `foreach` by what it does: the result of what `filter` does in its place is dropped. -/
theorem run_foreach (t : TableId) (callee : Callee) (trace : Trace) :
    (Builtin.engine .foreach).run [.table t, .function callee] trace =
      (Activity.access (.rawLength t) >>= fun count =>
        EngineFunction.keep ⟨"foreach", [.table t, .function callee], trace⟩ t (.function callee)
          count 1 >>= fun _ => pure []) := by
  have goes : (Builtin.engine .foreach).run [.table t, .function callee] trace =
      (Activity.access (.rawLength t) >>= fun count =>
        EngineFunction.visit ⟨"foreach", [.table t, .function callee], trace⟩ t (.function callee)
          count 1 >>= fun _ => pure []) := rfl
  simp only [goes, visit_eq_keep]
  rfl

theorem run_filter (t : TableId) (callee : Callee) (trace : Trace) :
    (Builtin.engine .filter).run [.table t, .function callee] trace =
      (Activity.access (.rawLength t) >>= fun count =>
        EngineFunction.keep ⟨"filter", [.table t, .function callee], trace⟩ t (.function callee)
          count 1 >>= fun kept => listOf kept >>= fun list =>
            pure [list, .ofNat kept.length]) := rfl

theorem run_pick (t : TableId) (trace : Trace) :
    (Builtin.engine .pick).run [.table t] trace =
      (Activity.access (.rawLength t) >>= fun count =>
        if count = 0 then pure [.nil]
        else Activity.ask (.draw count) >>= fun n =>
          Activity.access (.rawGet t (.ofNat (n + 1))) >>= fun item => pure [item]) := by
  refine congrArg (Activity.bind (Activity.access (.rawLength t))) (funext fun count => ?_)
  split <;> rfl

/-- The list functions go through what a table itself holds. -/
theorem treats_of_lists (lists : (world.heap.entries t).Lists items) :
    Treats turns perform world t items := by
  refine ⟨fun {callee trace visits last} made all => ?foreach,
    fun {callee trace visits last} made all => ?filter,
    fun {f callee trace visits item rest later e cause next last} which made all raised causes =>
      ?stops,
    fun {n next} trace h drawn alone => ?pick, fun trace none => ?pick_nil, fun trace => ?values,
    fun later {cursor position} args trace alone found within => ?advance⟩
  case foreach =>
    refine Leads.comes ?_
    rw [run_foreach]
    exact ((leads_length lists).bind _).trans ((made.leads_all lists all).bind _)
  case filter =>
    refine Leads.comes ?_
    rw [run_filter]
    exact ((leads_length lists).bind _).trans
      (((made.leads_all lists all).bind _).trans ((Leads.access _ last).bind _))
  case stops =>
    refine Leads.comes_error ?_
    rcases which with rfl | rfl
    · rw [run_foreach]
      exact ((leads_length lists).bind _).trans ((made.leads_error lists all raised causes).bind _)
    · rw [run_filter]
      exact ((leads_length lists).bind _).trans ((made.leads_error lists all raised causes).bind _)
  case pick =>
    refine Leads.comes ?_
    rw [run_pick]
    have some : items.length ≠ 0 := by omega
    have picks : Leads turns perform (Activity.access (.rawGet t (.ofNat (n + 1)))) next
        (pure items[n]) next :=
      leads_read (by rwa [Heap.entries_congr alone]) h
    refine ((leads_length lists).bind _).trans ?_
    show Leads turns perform (if items.length = 0 then _ else _) world _ next
    rw [if_neg some]
    exact ((Leads.ask drawn).bind _).trans (picks.bind _)
  case pick_nil =>
    refine Leads.comes ?_
    rw [run_pick]
    refine ((leads_length lists).bind _).trans ?_
    show Leads turns perform (if items.length = 0 then _ else _) world _ world
    rw [if_pos (List.length_eq_zero_iff.mpr none)]
    exact .refl _ _
  case values => exact Leads.comes ((Leads.access (.newCursor t) world).bind _)
  case advance =>
    have read : (later.heap.advance cursor).1 = (items[position]?).getD .nil := by
      have given : (later.heap.advance cursor).1 =
          (later.heap.entries t).at (.ofNat (position + 1)) := by
        simp only [Heap.advance, found]
        rfl
      rw [given, Heap.entries_congr alone]
      rcases Nat.lt_or_eq_of_le within with before | rfl
      · rw [lists.item position before, List.getElem?_eq_getElem before, Option.getD_some]
      · rw [lists.stop, List.getElem?_eq_none (Nat.le_refl _), Option.getD_none]
    refine ⟨⟨2, ?_⟩, ?_⟩
    · rw [← read]
      rfl
    · simp only [Heap.advance, found]
      rw [Array.getElem?_modify, if_pos rfl, found]
      rfl

/-! ### Plain tables and views -/

theorem Heap.shows_iff {heap : Heap} {entries : Entries} (length : heap.length t = entries.border)
    (get : ∀ n : Nat, heap.get t (.ofNat n) = entries.at (.ofNat n)) :
    heap.Shows t items ↔ entries.Lists items :=
  ⟨fun shows => ⟨length ▸ shows.length, fun i h => get _ ▸ shows.item i h, get _ ▸ shows.stop,
      shows.present⟩,
    fun lists => ⟨length ▸ lists.border, fun i h => get _ ▸ lists.item i h, get _ ▸ lists.stop,
      lists.present⟩⟩

theorem Heap.shows_plain_iff {heap : Heap} {entries : Entries}
    (plain : heap.table? t = some (.plain entries)) : heap.Shows t items ↔ entries.Lists items := by
  refine shows_iff ?_ fun n => get_plain plain _
  simp only [Heap.length, plain, rawLength, entries_of_table? plain]

/-- A script reads from the view of a plain table what the table has. -/
theorem Heap.shows_view_iff {heap : Heap} {view : TableId} {entries : Entries}
    (shows : heap.table? view = some (.frozen t)) (plain : heap.table? t = some (.plain entries)) :
    heap.Shows view items ↔ entries.Lists items := by
  refine shows_iff ?_ fun n => ?_
  · simp only [Heap.length, shows, rawLength, entries_of_table? plain]
  · obtain ⟨fuel, size⟩ := Nat.exists_eq_succ_of_ne_zero
      (Nat.ne_of_gt (Nat.zero_lt_of_lt (lt_size_of_table? plain)))
    simp only [Heap.get, size, lookup, shows, plain]
    rfl

theorem treats_of_plain {entries : Entries} (plain : world.heap.table? t = some (.plain entries))
    (shows : world.heap.Shows t items) : Treats turns perform world t items := by
  refine treats_of_lists ?_
  rw [Heap.entries_of_table? plain]
  exact (Heap.shows_plain_iff plain).mp shows

theorem treats_of_view {source : TableId} (view : world.heap.table? t = some (.frozen source)) :
    Treats turns perform world t [] := by
  refine treats_of_lists ?_
  rw [Heap.entries_of_not_plain view (by simp)]
  exact Entries.lists_empty

/-- An iteration tells an empty list from any other one. -/
theorem Treats.eq_nil (empty : Treats turns perform world t [])
    (treats : Treats turns perform world t items) (present : ∀ v ∈ items, v ≠ .nil) : items = [] := by
  have begun : (world.heap.newCursor t).2.cursors[world.heap.cursors.size]? = some ⟨t, 0⟩ :=
    Array.getElem?_push_size
  let later : World σ := ⟨world.state, (world.heap.newCursor t).2⟩
  obtain ⟨first, -⟩ := treats.advance later [] [] rfl begun (Nat.zero_le _)
  obtain ⟨first', -⟩ := empty.advance later [] [] rfl begun (Nat.zero_le _)
  obtain ⟨same, -⟩ := first.unique first'
  cases items with
  | nil => rfl
  | cons item rest =>
    cases same
    exact absurd rfl (present _ List.mem_cons_self)

end

namespace Heap

variable {heap : Heap} {view u : TableId}

/-- A global name that is given a table stands for a view of it. -/
theorem bound_define_table {store : StoreId} (there : store < heap.stores.size) (name : Bytes)
    (t : TableId) :
    (heap.define store name (.table t)).bound store (.text name) = .table (heap.freeze t).1 := by
  have there' : store < (heap.freeze t).2.stores.size := by
    rwa [(heap.freeze_view t).1.stores]
  exact (bound_bind ..).trans (if_pos ⟨rfl, rfl, there'⟩)

section

variable {t : TableId} {views : SortedMap TableId TableId} (store : StoreId) (name : Bytes)

theorem Frozen.view_define (frozen : heap.Frozen t (heap.freeze t).1 (heap.freeze t).2 views)
    (seen : views.get? u = some view) :
    (heap.define store name (.table t)).table? view = some (.frozen u) :=
  (frozen.shown seen).2.2

/-- A view of a plain list shows the list, with views in the place of the tables in it. -/
theorem Frozen.shows_define (frozen : heap.Frozen t (heap.freeze t).1 (heap.freeze t).2 views)
    (ordered : heap.Ordered) (seen : views.get? u = some view) {entries : Entries}
    {items : List Value} (plain : heap.table? u = some (.plain entries)) (shows : heap.Shows u items) :
    (heap.define store name (.table t)).Shows view (items.map (Value.viewed views)) := by
  have behind : (heap.define store name (.table t)).table? u = some (.plain _) :=
    frozen.table?_viewed ordered plain (Option.isSome_of_eq_some seen)
  refine (shows_view_iff (frozen.view_define store name seen) behind).mpr ?_
  exact ((shows_plain_iff plain).mp shows).mapValues fun v => Value.viewed_eq_nil

end

/-- Whatever a script does, a view stays a view of the same table. -/
theorem table?_view_access {α : Type} (access : Access α)
    (shows : heap.table? view = some (.frozen u)) :
    (access.run heap).2.table? view = some (.frozen u) := by
  have apart : ∀ entries, TableObject.frozen u ≠ .plain entries := by simp
  cases access with
  | newTable entries => exact (spares_newTable heap _).tables apart shows
  | set t key value =>
    unfold Access.run
    dsimp only
    split
    · exact shows
    · unfold write
      split
      · cases value with
        | table inner => exact (heap.freeze_view inner).1.tables apart shows
        | _ => exact shows
      · exact (spares_rawSet heap _ _ _).tables apart shows
  | advance id =>
    show (heap.advance id).2.table? view = some (.frozen u)
    unfold Heap.advance
    split <;> exact shows
  | _ => exact shows

end Heap

/-- What the list functions do with the tables of a global name. The name stands for a view, and so
does every table that the assigned one leads to; a view of a plain list shows the list, with views in
the place of the tables in it. The list functions go through every plain list that they are given, but
every view, which stays one whatever a script does, is an empty list to them: they treat it as the list
that it shows if and only if that is empty. -/
theorem list_functions_miss_views {σ : Type} (turns : Nat) (perform : Performer σ) {heap : Heap}
    (closed : heap.Closed) (ordered : heap.Ordered) {store : StoreId}
    (there : store < heap.stores.size) (name : Bytes) {t : TableId}
    (allocated : t < heap.tables.size) :
    (∀ (world : World σ) u entries items, world.heap.table? u = some (.plain entries) →
      world.heap.Shows u items → Treats turns perform world u items) ∧
    (∀ (world : World σ) view source, world.heap.table? view = some (.frozen source) →
      (∀ {α : Type} (access : Access α),
        (access.run world.heap).2.table? view = some (.frozen source)) ∧
      Treats turns perform world view [] ∧
      ∀ items, world.heap.Shows view items → (Treats turns perform world view items ↔ items = [])) ∧
    ∃ views : SortedMap TableId TableId,
      (∃ view, views.get? t = some view ∧
        (heap.define store name (.table t)).bound store (.text name) = .table view) ∧
      (∀ u, (views.get? u).isSome ↔ ReflTransGen heap.Nests t u) ∧
      ∀ u view, views.get? u = some view →
        (heap.define store name (.table t)).table? view = some (.frozen u) ∧
        ∀ entries items, heap.table? u = some (.plain entries) → heap.Shows u items →
          (heap.define store name (.table t)).Shows view (items.map (Value.viewed views)) := by
  refine ⟨fun world u entries items plain shows => treats_of_plain plain shows,
    fun world view source shows => ⟨fun access => Heap.table?_view_access access shows,
      treats_of_view shows, fun items lists => ⟨fun treats => ?_, fun empty => ?_⟩⟩, ?_⟩
  · exact (treats_of_view shows).eq_nil treats lists.present
  · rw [empty]
    exact treats_of_view shows
  · obtain ⟨views, frozen⟩ := Heap.freeze_spec closed allocated
    exact ⟨views, ⟨_, frozen.root, Heap.bound_define_table there name t⟩, frozen.reached,
      fun u view seen => ⟨frozen.view_define store name seen,
        fun entries items plain shows => frozen.shows_define store name ordered seen plain shows⟩⟩

/-! ### Three numbers -/

def threeNumbers : Heap where
  tables := #[.plain (.ofList [(.integer 1, .integer 10), (.integer 2, .integer 20),
    (.integer 3, .integer 30)])]
  stores := #[{}]

def namedNumbers : Engine :=
  ⟨Game.new {} 0 1, threeNumbers.define 0 (utf8 "numbers") (.table 0)⟩

theorem closed_threeNumbers : threeNumbers.Closed := by
  have plain : Heap.Closed { threeNumbers with stores := #[] } :=
    Heap.closed_of_all (by decide +kernel) rfl
  exact (plain.newStore (s := {}) fun name u bound => by cases bound).closed

theorem ordered_threeNumbers : threeNumbers.Ordered := by
  have empty : ({} : Heap).Ordered := fun t => Entries.ordered_empty
  have ordered : Heap.Ordered { threeNumbers with stores := #[] } :=
    empty.newTable fun entries is => by
      cases is
      exact Entries.ordered_ofList _
  exact ordered.of_same rfl

theorem shows_threeNumbers : threeNumbers.Shows 0 [.integer 10, .integer 20, .integer 30] := by
  have lists : Entries.Lists (threeNumbers.entries 0) [.integer 10, .integer 20, .integer 30] :=
    ⟨by decide +kernel, by decide +kernel, by decide +kernel, by decide +kernel⟩
  exact (Heap.shows_plain_iff rfl).mpr lists

/-- Three numbers under a global name can be read, and are an empty list to the list functions. -/
theorem list_functions_miss_views_threeNumbers :
    ∃ view, namedNumbers.heap.bound 0 (.text (utf8 "numbers")) = .table view ∧
      namedNumbers.heap.Shows view [.integer 10, .integer 20, .integer 30] ∧
      Treats 1 (Engine.perform fun _ _ => none) namedNumbers view [] ∧
      ¬ Treats 1 (Engine.perform fun _ _ => none) namedNumbers view
        [.integer 10, .integer 20, .integer 30] := by
  have store : 0 < threeNumbers.stores.size := by decide
  have allocated : 0 < threeNumbers.tables.size := by decide
  obtain ⟨-, onView, views, ⟨view, seen, named⟩, -, shown⟩ :=
    list_functions_miss_views 1 (Engine.perform fun _ _ => none) closed_threeNumbers
      ordered_threeNumbers store (utf8 "numbers") allocated
  obtain ⟨frozen, behind⟩ := shown 0 view seen
  have shows := behind _ _ rfl shows_threeNumbers
  obtain ⟨-, empty, onlyEmpty⟩ := onView namedNumbers view 0 frozen
  exact ⟨view, named, shows, empty, (onlyEmpty _ shows).not.mpr (List.cons_ne_nil _ _)⟩

/-- A list under a global name need not be that list to the list functions. -/
theorem list_functions_miss_numbers :
    ¬ ∀ (heap : Heap) (store : StoreId) (name : Bytes) (t view : TableId) (items : List Value),
      heap.Closed → heap.Ordered → store < heap.stores.size → t < heap.tables.size →
      (heap.define store name (.table t)).bound store (.text name) = .table view →
      (heap.define store name (.table t)).Shows view items →
      Treats 1 (Engine.perform fun _ _ => none)
        ⟨namedNumbers.state, heap.define store name (.table t)⟩ view items := by
  intro always
  have allocated : 0 < threeNumbers.tables.size := by decide
  have store : 0 < threeNumbers.stores.size := by decide
  obtain ⟨views, frozen⟩ := Heap.freeze_spec closed_threeNumbers allocated
  have view := frozen.view_define 0 (utf8 "numbers") frozen.root
  have shows := frozen.shows_define 0 (utf8 "numbers") ordered_threeNumbers frozen.root rfl
    shows_threeNumbers
  have treats := always _ _ _ _ _ _ closed_threeNumbers ordered_threeNumbers store allocated
    (Heap.bound_define_table store _ _) shows
  exact List.cons_ne_nil _ _ ((treats_of_view view).eq_nil treats shows.present)

end EntityScripting.Script
