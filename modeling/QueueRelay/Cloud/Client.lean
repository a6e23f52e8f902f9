import QueueRelay.Http.Status
import QueueRelay.Sink.Cloud
import QueueRelay.Value
/-!
Sending to cloud queues and cloud topics.

The queue service takes records and the topic service takes forms.  Before a session is
handed out the attributes of the queue or topic are read once; whatever goes wrong then
means that it cannot be reached.  Later on a request without an answer is a lost link, and
an answer other than a success is a refused message.
-/
namespace QueueRelay.Cloud

/-- What is asked of the services. -/
inductive Request where
  | queueAttributes (url : String)
  | topicAttributes (arn : String)
  | handOver (c : Call)
deriving DecidableEq

/-- How a request is written. -/
inductive Wire where
  /-- The name of the operation and its record. -/
  | record (action : String) (body : Value)
  /-- The fields of a form. -/
  | form (fields : List (String × String))

/-- The calls on a transport: requests, which get the status of their answer, or the words
of a transport that got none. -/
abbrev transport : Interface where
  Call := Request
  Answer _ := Except String Http.Status

namespace Request

/-- The service and the operation, as errors name them. -/
def operation : Request → String
  | queueAttributes _ => "sqs get_queue_attributes"
  | topicAttributes _ => "sns get_topic_attributes"
  | handOver (.sendToQueue ..) => "sqs send_message"
  | handOver (.publishToTopic ..) => "sns publish"

/-- The form of a topic operation. -/
def topicForm (action arn : String) (more : List (String × String)) : Wire :=
  .form ([("Action", action), ("Version", "2010-03-31"), ("TopicArn", arn)] ++ more)

/-- A request in writing.  The origin travels as an attribute of the message. -/
def wire : Request → Wire
  | queueAttributes url =>
    .record "AmazonSQS.GetQueueAttributes"
      (.record [("QueueUrl", .text url), ("AttributeNames", .list [.text "QueueArn"])])
  | topicAttributes arn => topicForm "GetTopicAttributes" arn []
  | handOver (.sendToQueue url body origin) =>
    .record "AmazonSQS.SendMessage"
      (.record [("QueueUrl", .text url), ("MessageBody", .text body),
        ("MessageAttributes", .record [("Source",
          .record [("StringValue", .text origin), ("DataType", .text "String")])])])
  | handOver (.publishToTopic arn body origin) =>
    topicForm "Publish" arn
      [("Message", body), ("MessageAttributes.entry.1.Name", "Source"),
       ("MessageAttributes.entry.1.Value.DataType", "String"),
       ("MessageAttributes.entry.1.Value.StringValue", origin)]

end Request

/-- A session with the services. -/
structure Client where
deriving DecidableEq

/-- The request that reads the attributes of a place. -/
def lookup : Place → Request
  | .queue url => .queueAttributes url
  | .topic arn => .topicAttributes arn

def ask (r : Request) : Program transport (Except String Http.Status) :=
  .perform (I := transport) r

/-- What the answer says about a place. -/
def checked (r : Request) : Except String Http.Status → Except LinkError Unit
  | .error words => .error (.connectionFailed (r.operation ++ ": " ++ words))
  | .ok status =>
    if status.isSuccess then .ok ()
    else .error (.connectionFailed (r.operation ++ ": " ++ status.shown))

/-- What the answer says about a message. -/
def taken (r : Request) : Except String Http.Status → Except LinkError Unit
  | .error words => .error (.connectionLost (r.operation ++ ": " ++ words))
  | .ok status =>
    if status.isSuccess then .ok ()
    else .error (.sendFailed (r.operation ++ ": " ++ status.shown) {})

/-- The services behind the link of a sink.  A session stays open until it is closed, and
no link holds on to one that it closed. -/
def answer (place : Place) : (c : (Link.calls Cloud.calls Client).Call) →
    Program transport ((Link.calls Cloud.calls Client).Answer c)
  | .connect => do
    let r := lookup place
    return (checked r (← ask r)).map fun _ => {}
  | .isOpen _ => return true
  | .close _ => return .ok ()
  | .ask _ c => do
    let r := Request.handOver c
    return taken r (← ask r)

end QueueRelay.Cloud
