import ClaudeProxy.Kit.Machine
import ClaudeProxy.Manager.QueueManager

namespace ClaudeProxy.Manager

open Kit Sessions Trees

/-- The counter behind the message ids of the web adapter; it starts with the process. -/
structure WebPlatform where
  outCounter : Nat

def WebPlatform.sendMessage (platform : WebPlatform) : MessageId × WebPlatform :=
  (⟨"web-out-" ++ toString (platform.outCounter + 1), by simp [String.append_eq_empty_iff]⟩, ⟨platform.outCounter + 1⟩)

/-- A message as its own chat sees it. The code keeps no such record. -/
structure Entry where
  chatId : String
  nodeId : MessageId
  statusMessageId : MessageId
  rootId : MessageId
  parentId : Option MessageId
deriving DecidableEq

def Entry.names (e : Entry) (msgId : MessageId) : Bool := e.nodeId = msgId ∨ e.statusMessageId = msgId

def repliedTo (log : List Entry) (incoming : IncomingMessage) : Option Entry :=
  incoming.replyToMessageId.bind fun replyId => log.find? fun e => e.chatId = incoming.chatId ∧ e.names replyId

/-- A message between the lookup of its parent and the filing of its node: its status message is being sent. -/
structure Handling where
  incoming : IncomingMessage
  parentNodeId : Option MessageId
  expected : Option Entry

namespace Handling

def statusMsgId (h : Handling) (sent : MessageId) : MessageId := h.incoming.statusMessageId.getD sent

def entry (h : Handling) (sent : MessageId) : Entry where
  chatId := h.incoming.chatId
  nodeId := h.incoming.messageId
  statusMessageId := h.statusMsgId sent
  rootId := (h.expected.map (·.rootId)).getD h.incoming.messageId
  parentId := h.expected.map (·.nodeId)

end Handling

/-- The manager and the store of one handler, the content messages it is handling, and the record of those it has handled. -/
structure Conversations where
  repository : TreeRepository MessageTree
  store : SessionStore MessageId MessageNode
  handling : List Handling
  log : List Entry

/-- `process` is an update of a node's state while it is processed, with or without a save of its tree. -/
inductive Action where
  | receive (incoming : IncomingMessage)
  | file (index : Nat) (sent : MessageId) (now : Timestamp)
  | process (nodeId : MessageId) (state : MessageState) (sessionId errorMessage : Option String) (saves : Bool)
    (now : Timestamp)
  | restart (now : Timestamp)

namespace Conversations

def initial : Conversations := ⟨.new, .new, [], []⟩

def receive (s : Conversations) (incoming : IncomingMessage) : Conversations :=
  { s with handling := s.handling ++
      [⟨incoming, incoming.replyToMessageId.bind s.repository.resolveParentNodeId, repliedTo s.log incoming⟩] }

def file (s : Conversations) (h : Handling) (sent : MessageId) (now : Timestamp) : Conversations :=
  let nodeId := h.incoming.messageId
  let statusMsgId := h.statusMsgId sent
  let s := { s with log := s.log ++ [h.entry sent] }
  match h.parentNodeId with
  | some parentNodeId =>
    match s.repository.addToTree parentNodeId nodeId h.incoming statusMsgId now with
    | none => s
    | some (tree, repository) => { s with
        repository := repository.registerNode statusMsgId tree.rootId
        store := ((s.store.registerNode statusMsgId tree.rootId).registerNode nodeId tree.rootId).saveTree
          tree.rootId (toDict tree) }
  | none =>
    let (tree, repository) := s.repository.createTree nodeId h.incoming statusMsgId now
    { s with
      repository := repository.registerNode statusMsgId tree.rootId
      store := ((s.store.registerNode nodeId tree.rootId).registerNode statusMsgId tree.rootId).saveTree
        tree.rootId (toDict tree) }

def process (s : Conversations) (nodeId : MessageId) (state : MessageState) (sessionId errorMessage : Option String)
    (saves : Bool) (now : Timestamp) : Conversations :=
  match s.repository.nodeToTree.get? nodeId, s.repository.getTreeForNode nodeId with
  | some rootId, some tree =>
    let tree := tree.updateState nodeId state sessionId errorMessage now
    { s with
      repository := { s.repository with trees := s.repository.trees.set rootId tree }
      store := if saves then s.store.saveTree tree.rootId (toDict tree) else s.store }
  | _, _ => s

/-- The messages in flight are lost. Where the saved trees cannot be read, the platform starts without them. -/
def restart (s : Conversations) (now : Timestamp) : Conversations :=
  let s := { s with handling := [] }
  if s.store.trees.entries = [] then { s with repository := .new }
  else
    match TreeRepository.fromDict s.store.trees s.store.nodeToTree with
    | none => { s with repository := .new }
    | some repository =>
      let (stale, repository) := repository.cleanupStaleNodes now
      { s with
        repository := repository
        store := if stale > 0 then ⟨repository.savedTrees, repository.nodeToTree⟩ else s.store }

def step (s : Conversations) : Action → Option Conversations
  | .receive incoming => some (s.receive incoming)
  | .file index sent now => s.handling[index]?.map fun h => { s with handling := s.handling.eraseIdx index }.file h sent now
  | .process nodeId state sessionId errorMessage saves now => some (s.process nodeId state sessionId errorMessage saves now)
  | .restart now => some (s.restart now)

def machine : Machine Conversations Action := ⟨initial, step⟩

end Conversations

def repliesTo (log : List Entry) (e : Entry) : List MessageId :=
  (log.filter fun reply => reply.chatId = e.chatId ∧ reply.parentId = some e.nodeId).map (·.nodeId)

/-- The node is the message of the record, under its parent and over its replies. -/
structure NodeOf (log : List Entry) (e : Entry) (node : MessageNode) : Prop where
  nodeId : node.nodeId = e.nodeId
  chatId : node.incoming.chatId = e.chatId
  statusMessageId : node.statusMessageId = e.statusMessageId
  parentId : node.parentId = e.parentId
  childrenIds : node.childrenIds = repliesTo log e

/-- Every message that was handled is a node of its own conversation, and the trees hold nothing else. -/
structure Conversations.Routed (s : Conversations) : Prop where
  held : ∀ e ∈ s.log, ∃ tree node, s.repository.getTree e.rootId = some tree ∧ tree.getNode e.nodeId = some node ∧
    NodeOf s.log e node
  only : ∀ rootId tree nodeId node, s.repository.getTree rootId = some tree → tree.getNode nodeId = some node →
    ∃ e ∈ s.log, e.rootId = rootId ∧ e.nodeId = nodeId ∧ NodeOf s.log e node

end ClaudeProxy.Manager
