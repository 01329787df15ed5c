import PageBindings.Settings.Reader
import PageBindings.Script.Outline
import PageBindings.World

/-!
# Steps of a script

A script works on a world from outside, step by step.  Each step gives an answer or a fault and the world as it is
afterwards; after a fault the script goes on.  Here are the steps that any page can be asked for: those of a client
(`ClientStep`) and those on the page itself (`PageStep`).
-/

namespace PageBindings.Script

/-- How a script refers to an element: by its number, if that was handed out, or as the first match of a selector. -/
inductive NodeRef where
  | number (node : NodeId)
  | selector (text : String)

/-- Why a step has no answer. -/
inductive Fault where
  | settings (cause : SettingsError)
  | binding (cause : BindingError)
  | lookup (cause : LookupError)
  | patch (cause : PatchError)
  | transport (cause : ConnectionError)
  | page (cause : PageError)
  /-- What a page script is told when it cannot be set up. -/
  | setup (message : String)
  | noSuchNode
  | noSuchClient
  | noSuchRequest
  | noStream

/-- What a step gives. -/
inductive Answer where
  | nothing
  | flag (value : Bool)
  | number (value : Nat)
  | text (value : String)
  | nodes (nodes : List NodeId)
  | texts (values : List String)
  | values (values : List Json)
  | outline (outline : Outline)
  | view (view : View) (selector : String)
  | patch (outcome : PatchOutcome)
  | dispatched (prevented : Bool)

/-- The answer that may be missing. -/
def Answer.ofOption {α : Type} (answer : α → Answer) : Option α → Answer
  | some value => answer value
  | none => .nothing

/-- Resolvers that a script can give to a client. -/
inductive SampleResolver where
  /-- The first argument, or null. -/
  | echo
  /-- The list of all arguments. -/
  | arguments
  /-- Always fails. -/
  | failure
deriving DecidableEq, Repr

/-- What the resolver does. -/
def SampleResolver.toResolver {π : Type} : SampleResolver → Resolver π
  | .echo => fun _ arguments => .ok (arguments.headD .null)
  | .arguments => fun _ arguments => .ok (.array arguments)
  | .failure => fun _ _ => .error (.badArguments "fail" "nothing")

/-- The standard resolvers with others added. -/
def resolversWith {π : Type} [Page π] (added : List (String × SampleResolver)) : Resolvers π :=
  added.foldl (fun resolvers (name, sample) => resolvers.insert name sample.toResolver) Resolvers.standard

/-- The settings of a text, or the default ones without it. -/
def readSettings : Option String → Except SettingsError Settings
  | none => .ok {}
  | some text => Settings.parse text

/-- What a step leaves and gives. -/
abbrev Result (π : Type) := World π × Except Fault Answer

variable {π : Type} [VisiblePage π]

/-- The element that a reference means. -/
def findNode (page : π) : NodeRef → Except Fault NodeId
  | .number node => if (VisiblePage.handedOut page).contains node then .ok node else .error .noSuchNode
  | .selector text =>
    match Page.query page none text with
    | .error cause => .error (.page cause)
    | .ok [] => .error .noSuchNode
    | .ok (node :: _) => .ok node

/-- Goes on with the element that a reference means, if there is one. -/
def withNode (world : World π) (ref : NodeRef) (go : NodeId → Result π) : Result π :=
  match findNode world.page ref with
  | .ok node => go node
  | .error fault => (world, .error fault)

/-- Goes on with the elements that references mean, if there are all of them. -/
def withNodes (world : World π) (refs : List NodeRef) (go : List NodeId → Result π) : Result π :=
  match refs.mapM (findNode world.page) with
  | .ok nodes => go nodes
  | .error fault => (world, .error fault)

/-- A step with a client. -/
inductive ClientStep where
  | start
  | scan (nodes : List NodeRef)
  | bind (node : NodeRef)
  | patch (kind : PatchKind) (target : String) (fragment : Option String)
  | swapPushed (html : String)
  | connect
  | close
  | view (node : NodeRef)

/-- Performs a step with a client. -/
def ClientStep.perform (world : World π) (client : Client π) : ClientStep → Result π
  | .start =>
    match world.start client with
    | (world, .ok added) => (world, .ok (.number added))
    | (world, .error cause) => (world, .error (.page cause))
  | .scan nodes => withNodes world nodes fun nodes =>
    let (scene, added) := client.scan world.toScene nodes
    (world.withScene scene, .ok (.number added))
  | .bind node => withNode world node fun node =>
    match client.bind world.toScene node with
    | (scene, .ok added) => (world.withScene scene, .ok (.number added))
    | (scene, .error cause) => (world.withScene scene, .error (.binding cause))
  | .patch kind target fragment =>
    match client.patch world.toScene kind target fragment with
    | (scene, .ok outcome) => (world.withScene scene, .ok (.patch outcome))
    | (scene, .error cause) => (world.withScene scene, .error (.patch cause))
  | .swapPushed html =>
    match client.swapPushed world.toScene html with
    | (scene, .ok outcome) => (world.withScene scene, .ok (.patch outcome))
    | (scene, .error cause) => (world.withScene scene, .error (.patch cause))
  | .connect =>
    match world.connect client with
    | (world, .ok ()) => (world, .ok .nothing)
    | (world, .error cause) => (world, .error (.transport cause))
  | .close => (world.close client, .ok .nothing)
  | .view node => withNode world node fun node =>
    let names := client.settings.vocabulary
    (world, .ok (Answer.ofOption (fun view => .view view (view.selector names)) (Page.view? world.page names node)))

/-- A step on the page itself. -/
inductive PageStep where
  | dispatch (node : NodeRef) (eventType : String)
  | enter (node : NodeRef) (value : String)
  | resolve (resolvers : List (String × SampleResolver)) (parameters : List Json)
  | patch (kind : PatchKind) (target : String) (fragment : Option String)
  | patchNodes (kind : PatchKind) (nodes : List NodeRef) (fragment : Option String)
  | insert (kind : PatchKind) (target node : NodeRef)
  | create (html : String)
  | find (selector : String)
  | disjoint (nodes : List NodeRef)
  | eventful (nodes : List NodeRef) (marker : String)
  | attributeOf (node : NodeRef) (name : String)
  | isAttached (node : NodeRef)
  | outline (node : NodeRef)

/-- The world after a change of the page, or the fault that it was refused. -/
def afterChange (world : World π) : Except PageError π → Result π
  | .ok page => ({ world with page }, .ok .nothing)
  | .error cause => (world, .error (.page cause))

/-- Performs a step on the page itself. -/
def PageStep.perform (world : World π) : PageStep → Result π
  | .dispatch node eventType => withNode world node fun node =>
    let (world, prevented) := world.dispatch node eventType
    (world, .ok (.dispatched prevented))
  | .enter node value => withNode world node fun node =>
    ({ world with page := VisiblePage.enter world.page node value }, .ok .nothing)
  | .resolve added parameters =>
    match (resolversWith added).resolve world.page parameters with
    | .ok values => (world, .ok (.values values))
    | .error cause => (world, .error (.lookup cause))
  | .patch kind target fragment =>
    match PageBindings.patch kind target fragment world.toScene with
    | (scene, .ok outcome) => (world.withScene scene, .ok (.patch outcome))
    | (scene, .error cause) => (world.withScene scene, .error (.patch cause))
  | .patchNodes kind nodes fragment => withNodes world nodes fun nodes =>
    match patchElements kind fragment world.toScene nodes with
    | (scene, .ok outcome) => (world.withScene scene, .ok (.patch outcome))
    | (scene, .error cause) => (world.withScene scene, .error (.patch cause))
  | .insert kind target node => withNode world target fun target => withNode world node fun node =>
    afterChange world (insertElement kind world.page target node)
  | .create html =>
    match Page.create world.page html with
    | .ok (node, page) => ({ world with page }, .ok (Answer.ofOption (.outline <| Outline.ofElement page ·) node))
    | .error cause => (world, .error (.page cause))
  | .find selector =>
    match Page.query world.page none selector with
    | .ok nodes => (world, .ok (.nodes nodes))
    | .error cause => (world, .error (.page cause))
  | .disjoint nodes => withNodes world nodes fun nodes =>
    (world, .ok (.nodes (outermost world.page nodes)))
  | .eventful nodes marker => withNodes world nodes fun nodes =>
    let (scene, found) := declaringElements marker world.toScene nodes
    (world.withScene scene, .ok (.nodes found))
  | .attributeOf node name => withNode world node fun node =>
    (world, .ok (Answer.ofOption .text (Page.attribute? world.page node name)))
  | .isAttached node => withNode world node fun node =>
    (world, .ok (.flag (Page.isConnected world.page node)))
  | .outline node => withNode world node fun node =>
    (world, .ok (.outline (Outline.ofElement world.page node)))

/-- Whether two notices are about listeners that one element refused. -/
def refusedTogether : Notice → Notice → Bool
  | .refusedListener _ a _, .refusedListener _ b _ => a == b
  | _, _ => false

/--
The lines of a log.  Event types of one element are bound in no particular order, so the lines about listeners that it
refused are sorted where they follow each other.
-/
def logLines (label : NodeId → String) (notices : List Notice) : List String :=
  (notices.splitBy refusedTogether).flatMap fun run => (run.map (Notice.line label)).mergeSort fun a b => !(b < a)

/-- The states of push channels, by name; a client that is gone has none. -/
def channelStates (clients : List (Option (Client π))) : List (Option String) :=
  clients.map fun client => client.map (·.channel.state.name)

end PageBindings.Script
