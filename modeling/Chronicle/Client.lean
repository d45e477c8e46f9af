/-
Chronicle/Client.lean

The client configuration with which a worker connects to the broker.

All workers of a processing group share the broker's consumer group
`prefix.group`; each has a client id of its own.  Settings made later replace
earlier ones of the same key.
-/
import Chronicle.Dictionary
import Chronicle.Text.Quoted

namespace Chronicle

/-- A change of the configuration: for a group and a worker, a key and its value. -/
abbrev Customiser := String → Nat → String × String

/-- How to reach the broker. -/
structure Connector where
  brokers : String
  topic : String
  groupPrefix : String
  customisers : List Customiser

namespace Connector

/-- A connector with nothing changed. -/
def new (brokers topic groupPrefix : String) : Connector := ⟨brokers, topic, groupPrefix, []⟩

/-- Adds a change behind the others. -/
def withCustomiser (c : Connector) (f : Customiser) : Connector :=
  { c with customisers := c.customisers ++ [f] }

/-- The broker's consumer group of a processing group. -/
def groupId (c : Connector) (group : String) : String := s!"{c.groupPrefix}.{group}"

/-- The client id of a worker on a host. -/
def clientId (c : Connector) (host group : String) (worker : Nat) : String :=
  s!"{c.groupId group}.{host}.{worker}"

/-- The settings that every worker starts from. -/
def builtIn (c : Connector) (host group : String) (worker : Nat) : List (String × String) :=
  [("bootstrap.servers", c.brokers),
   ("group.id", c.groupId group),
   ("client.id", c.clientId host group worker),
   ("enable.auto.commit", "false"),
   ("auto.offset.reset", "earliest"),
   ("session.timeout.ms", "30000"),
   ("fetch.min.bytes", "1024"),
   ("fetch.wait.max.ms", "1000")]

/-- The configuration of a worker.  Without a host name the host is `localhost`. -/
def clientConfig (c : Connector) (host : Option String) (group : String) (worker : Nat) :
    Dictionary String :=
  Dictionary.ofList (c.builtIn (host.getD "localhost") group worker
    ++ c.customisers.map fun f => f group worker)

/-- The description of a connector counts its changes. -/
def describe (c : Connector) : String :=
  Text.describe "KafkaConnector"
    [("brokers", Text.quote c.brokers), ("topic", Text.quote c.topic),
     ("group_prefix", Text.quote c.groupPrefix), ("customisers", s!"{c.customisers.length}")]

/-- A customiser that sets a key to a text in which the group and then the
worker are filled in. -/
def template (key value : String) : Customiser := fun group worker =>
  (key, (value.replace "\x7bgroup\x7d" group).replace "\x7bworker\x7d" s!"{worker}")

end Connector

end Chronicle
