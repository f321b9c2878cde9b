import ClaudeProxy.Api.Rbac

namespace ClaudeProxy.Api

open Kit Providers

inductive Role where
  | user
  | assistant
deriving DecidableEq

/-- `str | list[Any] | dict[str, Any]` -/
inductive ResultContent where
  | text (text : Str)
  | items (items : List Json)
  | members (members : Members)

/-- The five block types that the API accepts in a message. -/
inductive MessageBlock where
  | text (text : Str)
  | image (source : Members)
  | toolUse (id name : Str) (input : Members)
  | toolResult (toolUseId : Str) (content : ResultContent)
  | thinking (thinking : Str)

inductive MessageContent where
  | text (text : Str)
  | blocks (blocks : List MessageBlock)

structure Message where
  role : Role
  content : MessageContent

structure Tool where
  name : Str
  description : Option Str
  inputSchema : Members

/-- `str | list[SystemContent]`; a block has nothing but its text. -/
inductive SystemPrompt where
  | text (text : Str)
  | blocks (texts : List Str)

end ClaudeProxy.Api
