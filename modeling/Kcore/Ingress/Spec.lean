/-!
# Ingress documents

The documents an operator writes for the ingress: gateways and routes. Numbers have the width they have in the source.
The certificates of a PEM bundle are kept beside its text, as the PEM reader would return them.
-/

namespace Kcore.Ingress

/-! ### Gateways -/

structure Listener where
  address : String
  ports : List UInt16
  http3 : Bool

structure HighAvailability where
  vipAddress : String
  vipInterface : String
  virtualRouterId : UInt8

structure Acme where
  email : String
  ca : String
  challenges : List String
  /-- The provider of `Dns01`. -/
  dns01 : Option String

structure GatewayTls where
  acme : Acme
  storage : String
  minVersion : String

structure RateLimit where
  requestsPerMinute : UInt32
  key : String

structure KubernetesIngress where
  ingressController : Bool
  clusters : List String

structure GatewaySpec where
  nodes : List String
  listeners : List Listener
  highAvailability : Option HighAvailability
  tls : GatewayTls
  defaultWafPolicy : Option String
  rateLimit : Option RateLimit
  accessLog : Bool
  kubernetes : Option KubernetesIngress

/-! ### Routes -/

inductive RouteKind where
  | http
  | tcp
  deriving DecidableEq

inductive PortRef where
  | number (n : UInt16)
  | name (s : String)
  deriving DecidableEq

inductive K8sEndpoints where
  | loadBalancer
  | nodePort
  | pods
  deriving DecidableEq

inductive Backend where
  | vm (name : String) (port : UInt16)
  | container (name : String) (port : UInt16)
  | external (address : String)
  | kubernetes (cluster namespace_ service : String) (port : PortRef) (endpoints : K8sEndpoints)
  deriving DecidableEq

structure LoadBalancing where
  policy : String
  tryDuration : Option String
  deriving DecidableEq

structure HealthCheck where
  path : String
  interval : String
  expectStatus : UInt16
  deriving DecidableEq

structure CaBundle where
  text : String
  /-- `pem_certificates`, in base64. -/
  certificates : List String
  deriving DecidableEq

structure BackendTls where
  serverName : Option String
  caBundle : CaBundle
  deriving DecidableEq

structure PathSpec where
  pathPrefix : String
  backends : List Backend
  loadBalancing : LoadBalancing
  healthCheck : Option HealthCheck
  backendTls : Option BackendTls
  proxyProtocol : Bool
  deriving DecidableEq

structure WafExclusion where
  ruleId : UInt32
  path : String
  arg : Option String
  deriving DecidableEq

structure RouteWaf where
  policy : Option String
  mode : Option String
  exclusions : List WafExclusion
  deriving DecidableEq

structure Headers where
  hsts : Bool
  forwarded : List String
  deriving DecidableEq

structure RouteSpec where
  gateway : String
  kind : RouteKind
  hosts : List String
  paths : List PathSpec
  port : Option UInt16
  backends : List Backend
  proxyProtocol : Bool
  rateLimit : Option UInt32
  /-- `tls.issuer`. -/
  issuer : String
  waf : RouteWaf
  headers : Headers
  redirectHttp : Bool
  deriving DecidableEq

end Kcore.Ingress
