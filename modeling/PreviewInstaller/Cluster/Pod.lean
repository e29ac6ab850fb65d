import PreviewInstaller.Cluster.Shape

set_option autoImplicit false

/-! # Pods

The specification of a pod, as a table of its fields at every depth. Quantities are texts. -/

namespace PreviewInstaller.Cluster

namespace Pod

open Shape

/-! ## Parts of containers -/

/-- A reference to an object of the same namespace. -/
def localReference : Shape :=
  .record <| .optional "name" text .done

/-- A key of a configuration map or a secret. -/
def keySelector : Shape :=
  .record <| .required "key" text <| .optional "name" text <| .optional "optional" bool .done

/-- A field of the pod. -/
def fieldSelector : Shape :=
  .record <| .optional "apiVersion" text <| .required "fieldPath" text .done

/-- A resource of a container. -/
def resourceSelector : Shape :=
  .record <|
    .optional "containerName" text <| .optional "divisor" text <| .required "resource" text .done

/-- Where a variable takes its value from. -/
def envSource : Shape :=
  .record <|
    .optional "configMapKeyRef" keySelector <| .optional "fieldRef" fieldSelector <|
    .optional "resourceFieldRef" resourceSelector <| .optional "secretKeyRef" keySelector .done

/-- A variable of the environment. -/
def env : Shape :=
  .record <|
    .required "name" text <| .optional "value" text <| .optional "valueFrom" envSource .done

/-- The configuration map or the secret that variables come from. -/
def envReference : Shape :=
  .record <| .optional "name" text <| .optional "optional" bool .done

/-- Variables that come from an object. -/
def envFrom : Shape :=
  .record <|
    .optional "configMapRef" envReference <| .optional "prefix" text <|
    .optional "secretRef" envReference .done

/-- A header of an HTTP request. -/
def header : Shape :=
  .record <| .required "name" text <| .required "value" text .done

/-- An HTTP request. -/
def httpGet : Shape :=
  .record <|
    .optional "host" text <| .optional "httpHeaders" (.list header) <| .optional "path" text <|
    .required "port" Shape.intOrText <| .optional "scheme" text .done

/-- A command that is run in a container. -/
def exec : Shape :=
  .record <| .optional "command" (.list text) .done

/-- A connection that is opened. -/
def tcpSocket : Shape :=
  .record <| .optional "host" text <| .required "port" Shape.intOrText .done

/-- What is done in a container when it starts or stops. -/
def handler : Shape :=
  .record <|
    .optional "exec" exec <| .optional "httpGet" httpGet <| .optional "tcpSocket" tcpSocket .done

/-- What is done when a container starts and stops. -/
def lifecycle : Shape :=
  .record <| .optional "postStart" handler <| .optional "preStop" handler .done

/-- A remote procedure call. -/
def grpc : Shape :=
  .record <| .required "port" int32 <| .optional "service" text .done

/-- A check of a container. -/
def probe : Shape :=
  .record <|
    .optional "exec" exec <| .optional "failureThreshold" int32 <| .optional "grpc" grpc <|
    .optional "httpGet" httpGet <| .optional "initialDelaySeconds" int32 <|
    .optional "periodSeconds" int32 <| .optional "successThreshold" int32 <|
    .optional "tcpSocket" tcpSocket <| .optional "terminationGracePeriodSeconds" int64 <|
    .optional "timeoutSeconds" int32 .done

/-- A port of a container. -/
def port : Shape :=
  .record <|
    .required "containerPort" int32 <| .optional "hostIP" text <| .optional "hostPort" int32 <|
    .optional "name" text <| .optional "protocol" text .done

/-- The resources that a container may use and asks for. -/
def resources : Shape :=
  .record <| .optional "limits" texts <| .optional "requests" texts .done

/-- Capabilities that are added and dropped. -/
def capabilities : Shape :=
  .record <| .optional "add" (.list text) <| .optional "drop" (.list text) .done

/-- The SELinux labels of a process. -/
def seLinuxOptions : Shape :=
  .record <|
    .optional "level" text <| .optional "role" text <| .optional "type" text <|
    .optional "user" text .done

/-- A profile of system calls. -/
def seccompProfile : Shape :=
  .record <| .optional "localhostProfile" text <| .required "type" text .done

/-- The security of a process on Windows. -/
def windowsOptions : Shape :=
  .record <|
    .optional "gmsaCredentialSpec" text <| .optional "gmsaCredentialSpecName" text <|
    .optional "hostProcess" bool <| .optional "runAsUserName" text .done

/-- The security of a container. -/
def containerSecurity : Shape :=
  .record <|
    .optional "allowPrivilegeEscalation" bool <| .optional "capabilities" capabilities <|
    .optional "privileged" bool <| .optional "procMount" text <|
    .optional "readOnlyRootFilesystem" bool <| .optional "runAsGroup" int64 <|
    .optional "runAsNonRoot" bool <| .optional "runAsUser" int64 <|
    .optional "seLinuxOptions" seLinuxOptions <| .optional "seccompProfile" seccompProfile <|
    .optional "windowsOptions" windowsOptions .done

/-- A volume that is seen as a device. -/
def volumeDevice : Shape :=
  .record <| .required "devicePath" text <| .required "name" text .done

/-- A volume that is mounted. -/
def volumeMount : Shape :=
  .record <|
    .required "mountPath" text <| .optional "mountPropagation" text <| .required "name" text <|
    .optional "readOnly" bool <| .optional "subPath" text <| .optional "subPathExpr" text .done

/-! ## Containers -/

/-- The last fields of a container. -/
def containerEnd : Row :=
  .optional "terminationMessagePath" text <| .optional "terminationMessagePolicy" text <|
  .optional "tty" bool <| .optional "volumeDevices" (.list volumeDevice) <|
  .optional "volumeMounts" (.list volumeMount) <| .optional "workingDir" text .done

/-- The fields of a container, with those behind the input as they are given. -/
def containerRow (rest : Row) : Row :=
  .optional "args" (.list text) <| .optional "command" (.list text) <|
  .optional "env" (.list env) <| .optional "envFrom" (.list envFrom) <| .optional "image" text <|
  .optional "imagePullPolicy" text <| .optional "lifecycle" lifecycle <|
  .optional "livenessProbe" probe <| .required "name" text <| .optional "ports" (.list port) <|
  .optional "readinessProbe" probe <| .optional "resources" resources <|
  .optional "securityContext" containerSecurity <| .optional "startupProbe" probe <|
  .optional "stdin" bool <| .optional "stdinOnce" bool rest

/-- A container of a pod. -/
def container : Shape :=
  .record (containerRow containerEnd)

/-- A container that is run in a pod for a while, aimed at another one. -/
def ephemeralContainer : Shape :=
  .record (containerRow (.optional "targetContainerName" text containerEnd))

/-! ## Volumes -/

/-- A file that a key is projected to. -/
def keyToPath : Shape :=
  .record <| .required "key" text <| .optional "mode" int32 <| .required "path" text .done

/-- A disk of AWS. -/
def awsElasticBlockStore : Shape :=
  .record <|
    .optional "fsType" text <| .optional "partition" int32 <| .optional "readOnly" bool <|
    .required "volumeID" text .done

/-- A disk of Azure. -/
def azureDisk : Shape :=
  .record <|
    .optional "cachingMode" text <| .required "diskName" text <| .required "diskURI" text <|
    .optional "fsType" text <| .optional "kind" text <| .optional "readOnly" bool .done

/-- A file share of Azure. -/
def azureFile : Shape :=
  .record <|
    .optional "readOnly" bool <| .required "secretName" text <| .required "shareName" text .done

/-- A Ceph file system. -/
def cephfs : Shape :=
  .record <|
    .required "monitors" (.list text) <| .optional "path" text <| .optional "readOnly" bool <|
    .optional "secretFile" text <| .optional "secretRef" localReference <|
    .optional "user" text .done

/-- A volume of Cinder. -/
def cinder : Shape :=
  .record <|
    .optional "fsType" text <| .optional "readOnly" bool <| .optional "secretRef" localReference <|
    .required "volumeID" text .done

/-- The files of a configuration map. -/
def configMapVolume : Shape :=
  .record <|
    .optional "defaultMode" int32 <| .optional "items" (.list keyToPath) <| .optional "name" text <|
    .optional "optional" bool .done

/-- A volume of a CSI driver. -/
def csi : Shape :=
  .record <|
    .required "driver" text <| .optional "fsType" text <|
    .optional "nodePublishSecretRef" localReference <| .optional "readOnly" bool <|
    .optional "volumeAttributes" texts .done

/-- A file that tells about the pod. -/
def downwardFile : Shape :=
  .record <|
    .optional "fieldRef" fieldSelector <| .optional "mode" int32 <| .required "path" text <|
    .optional "resourceFieldRef" resourceSelector .done

/-- Files that tell about the pod. -/
def downwardVolume : Shape :=
  .record <| .optional "defaultMode" int32 <| .optional "items" (.list downwardFile) .done

/-- A directory that is empty at first. -/
def emptyDir : Shape :=
  .record <| .optional "medium" text <| .optional "sizeLimit" text .done

/-- A reference to an object of some kind. -/
def typedReference : Shape :=
  .record <| .optional "apiGroup" text <| .required "kind" text <| .required "name" text .done

/-- What is wanted of a persistent volume. -/
def claimSpec : Shape :=
  .record <|
    .optional "accessModes" (.list text) <| .optional "dataSource" typedReference <|
    .optional "dataSourceRef" typedReference <| .optional "resources" resources <|
    .optional "selector" selector <| .optional "storageClassName" text <|
    .optional "volumeMode" text <| .optional "volumeName" text .done

/-- A claim of a persistent volume that is made for the pod. -/
def claimTemplate : Shape :=
  .record <| .optional "metadata" metadata <| .required "spec" claimSpec .done

/-- A volume that lives as long as the pod. -/
def ephemeralVolume : Shape :=
  .record <| .optional "volumeClaimTemplate" claimTemplate .done

/-- A fibre channel volume. -/
def fc : Shape :=
  .record <|
    .optional "fsType" text <| .optional "lun" int32 <| .optional "readOnly" bool <|
    .optional "targetWWNs" (.list text) <| .optional "wwids" (.list text) .done

/-- A volume of a plugin. -/
def flexVolume : Shape :=
  .record <|
    .required "driver" text <| .optional "fsType" text <| .optional "options" texts <|
    .optional "readOnly" bool <| .optional "secretRef" localReference .done

/-- A Flocker volume. -/
def flocker : Shape :=
  .record <| .optional "datasetName" text <| .optional "datasetUUID" text .done

/-- A disk of GCE. -/
def gcePersistentDisk : Shape :=
  .record <|
    .optional "fsType" text <| .optional "partition" int32 <| .required "pdName" text <|
    .optional "readOnly" bool .done

/-- The checkout of a repository. -/
def gitRepo : Shape :=
  .record <|
    .optional "directory" text <| .required "repository" text <| .optional "revision" text .done

/-- A Gluster file system. -/
def glusterfs : Shape :=
  .record <| .required "endpoints" text <| .required "path" text <| .optional "readOnly" bool .done

/-- A path of the node. -/
def hostPath : Shape :=
  .record <| .required "path" text <| .optional "type" text .done

/-- An iSCSI disk. -/
def iscsi : Shape :=
  .record <|
    .optional "chapAuthDiscovery" bool <| .optional "chapAuthSession" bool <|
    .optional "fsType" text <| .optional "initiatorName" text <| .required "iqn" text <|
    .optional "iscsiInterface" text <| .required "lun" int32 <| .optional "portals" (.list text) <|
    .optional "readOnly" bool <| .optional "secretRef" localReference <|
    .required "targetPortal" text .done

/-- A directory of an NFS server. -/
def nfs : Shape :=
  .record <| .required "path" text <| .optional "readOnly" bool <| .required "server" text .done

/-- A persistent volume that is claimed. -/
def claimVolume : Shape :=
  .record <| .required "claimName" text <| .optional "readOnly" bool .done

/-- A disk of Photon. -/
def photonPersistentDisk : Shape :=
  .record <| .optional "fsType" text <| .required "pdID" text .done

/-- A Portworx volume. -/
def portworxVolume : Shape :=
  .record <| .optional "fsType" text <| .optional "readOnly" bool <| .required "volumeID" text .done

/-- The files of a configuration map or a secret among others. -/
def projectedFiles : Shape :=
  .record <|
    .optional "items" (.list keyToPath) <| .optional "name" text <| .optional "optional" bool .done

/-- Files that tell about the pod among others. -/
def projectedDownward : Shape :=
  .record <| .optional "items" (.list downwardFile) .done

/-- The token of a service account. -/
def accountToken : Shape :=
  .record <|
    .optional "audience" text <| .optional "expirationSeconds" int64 <| .required "path" text .done

/-- One of the sources of a projected volume. -/
def projection : Shape :=
  .record <|
    .optional "configMap" projectedFiles <| .optional "downwardAPI" projectedDownward <|
    .optional "secret" projectedFiles <| .optional "serviceAccountToken" accountToken .done

/-- Files of several sources. -/
def projected : Shape :=
  .record <| .optional "defaultMode" int32 <| .optional "sources" (.list projection) .done

/-- A Quobyte volume. -/
def quobyte : Shape :=
  .record <|
    .optional "group" text <| .optional "readOnly" bool <| .required "registry" text <|
    .optional "tenant" text <| .optional "user" text <| .required "volume" text .done

/-- A Rados block device. -/
def rbd : Shape :=
  .record <|
    .optional "fsType" text <| .required "image" text <| .optional "keyring" text <|
    .required "monitors" (.list text) <| .optional "pool" text <| .optional "readOnly" bool <|
    .optional "secretRef" localReference <| .optional "user" text .done

/-- A ScaleIO volume. -/
def scaleIO : Shape :=
  .record <|
    .optional "fsType" text <| .required "gateway" text <| .optional "protectionDomain" text <|
    .optional "readOnly" bool <| .required "secretRef" localReference <|
    .optional "sslEnabled" bool <| .optional "storageMode" text <| .optional "storagePool" text <|
    .required "system" text <| .optional "volumeName" text .done

/-- The files of a secret. -/
def secretVolume : Shape :=
  .record <|
    .optional "defaultMode" int32 <| .optional "items" (.list keyToPath) <|
    .optional "optional" bool <| .optional "secretName" text .done

/-- A StorageOS volume. -/
def storageos : Shape :=
  .record <|
    .optional "fsType" text <| .optional "readOnly" bool <| .optional "secretRef" localReference <|
    .optional "volumeName" text <| .optional "volumeNamespace" text .done

/-- A volume of vSphere. -/
def vsphereVolume : Shape :=
  .record <|
    .optional "fsType" text <| .optional "storagePolicyID" text <|
    .optional "storagePolicyName" text <| .required "volumePath" text .done

/-- A volume of a pod. -/
def volume : Shape :=
  .record <|
    .optional "awsElasticBlockStore" awsElasticBlockStore <| .optional "azureDisk" azureDisk <|
    .optional "azureFile" azureFile <| .optional "cephfs" cephfs <| .optional "cinder" cinder <|
    .optional "configMap" configMapVolume <| .optional "csi" csi <|
    .optional "downwardAPI" downwardVolume <| .optional "emptyDir" emptyDir <|
    .optional "ephemeral" ephemeralVolume <| .optional "fc" fc <|
    .optional "flexVolume" flexVolume <| .optional "flocker" flocker <|
    .optional "gcePersistentDisk" gcePersistentDisk <| .optional "gitRepo" gitRepo <|
    .optional "glusterfs" glusterfs <| .optional "hostPath" hostPath <| .optional "iscsi" iscsi <|
    .required "name" text <| .optional "nfs" nfs <| .optional "persistentVolumeClaim" claimVolume <|
    .optional "photonPersistentDisk" photonPersistentDisk <|
    .optional "portworxVolume" portworxVolume <| .optional "projected" projected <|
    .optional "quobyte" quobyte <| .optional "rbd" rbd <| .optional "scaleIO" scaleIO <|
    .optional "secret" secretVolume <| .optional "storageos" storageos <|
    .optional "vsphereVolume" vsphereVolume .done

/-! ## Placement -/

/-- One requirement on a node. -/
def nodeRequirement : Shape :=
  .record <|
    .required "key" text <| .required "operator" text <| .optional "values" (.list text) .done

/-- Requirements on a node that hold together. -/
def nodeTerm : Shape :=
  .record <|
    .optional "matchExpressions" (.list nodeRequirement) <|
    .optional "matchFields" (.list nodeRequirement) .done

/-- Requirements on a node with a weight. -/
def preferredNode : Shape :=
  .record <| .required "preference" nodeTerm <| .required "weight" int32 .done

/-- Requirements on a node of which some hold. -/
def nodeSelector : Shape :=
  .record <| .required "nodeSelectorTerms" (.list nodeTerm) .done

/-- The nodes that a pod is drawn to. -/
def nodeAffinity : Shape :=
  .record <|
    .optional "preferredDuringSchedulingIgnoredDuringExecution" (.list preferredNode) <|
    .optional "requiredDuringSchedulingIgnoredDuringExecution" nodeSelector .done

/-- Pods that a pod is placed with, or apart from. -/
def podTerm : Shape :=
  .record <|
    .optional "labelSelector" selector <| .optional "namespaceSelector" selector <|
    .optional "namespaces" (.list text) <| .required "topologyKey" text .done

/-- Pods with a weight. -/
def preferredPods : Shape :=
  .record <| .required "podAffinityTerm" podTerm <| .required "weight" int32 .done

/-- The pods that a pod is drawn to, or driven away from. -/
def podAffinity : Shape :=
  .record <|
    .optional "preferredDuringSchedulingIgnoredDuringExecution" (.list preferredPods) <|
    .optional "requiredDuringSchedulingIgnoredDuringExecution" (.list podTerm) .done

/-- Where a pod is placed. -/
def affinity : Shape :=
  .record <|
    .optional "nodeAffinity" nodeAffinity <| .optional "podAffinity" podAffinity <|
    .optional "podAntiAffinity" podAffinity .done

/-- A taint that a pod tolerates. -/
def toleration : Shape :=
  .record <|
    .optional "effect" text <| .optional "key" text <| .optional "operator" text <|
    .optional "tolerationSeconds" int64 <| .optional "value" text .done

/-- How pods are spread. -/
def spreadConstraint : Shape :=
  .record <|
    .optional "labelSelector" selector <| .optional "matchLabelKeys" (.list text) <|
    .required "maxSkew" int32 <| .optional "minDomains" int32 <|
    .optional "nodeAffinityPolicy" text <| .optional "nodeTaintsPolicy" text <|
    .required "topologyKey" text <| .required "whenUnsatisfiable" text .done

/-! ## Pods -/

/-- An option of the resolver. -/
def dnsOption : Shape :=
  .record <| .optional "name" text <| .optional "value" text .done

/-- The configuration of the resolver. -/
def dnsConfig : Shape :=
  .record <|
    .optional "nameservers" (.list text) <| .optional "options" (.list dnsOption) <|
    .optional "searches" (.list text) .done

/-- Names of an address. -/
def hostAlias : Shape :=
  .record <| .optional "hostnames" (.list text) <| .optional "ip" text .done

/-- The operating system of a pod. -/
def os : Shape :=
  .record <| .required "name" text .done

/-- A condition that a ready pod is in. -/
def readinessGate : Shape :=
  .record <| .required "conditionType" text .done

/-- A parameter of the kernel. -/
def sysctl : Shape :=
  .record <| .required "name" text <| .required "value" text .done

/-- The security of a pod. -/
def podSecurity : Shape :=
  .record <|
    .optional "fsGroup" int64 <| .optional "fsGroupChangePolicy" text <|
    .optional "runAsGroup" int64 <| .optional "runAsNonRoot" bool <| .optional "runAsUser" int64 <|
    .optional "seLinuxOptions" seLinuxOptions <| .optional "seccompProfile" seccompProfile <|
    .optional "supplementalGroups" (.list int64) <| .optional "sysctls" (.list sysctl) <|
    .optional "windowsOptions" windowsOptions .done

/-- The fields of what is wanted of a pod. -/
def row : Row :=
  .optional "activeDeadlineSeconds" int64 <| .optional "affinity" affinity <|
  .optional "automountServiceAccountToken" bool <| .required "containers" (.list container) <|
  .optional "dnsConfig" dnsConfig <| .optional "dnsPolicy" text <|
  .optional "enableServiceLinks" bool <|
  .optional "ephemeralContainers" (.list ephemeralContainer) <|
  .optional "hostAliases" (.list hostAlias) <| .optional "hostIPC" bool <|
  .optional "hostNetwork" bool <| .optional "hostPID" bool <| .optional "hostUsers" bool <|
  .optional "hostname" text <| .optional "imagePullSecrets" (.list localReference) <|
  .optional "initContainers" (.list container) <| .optional "nodeName" text <|
  .optional "nodeSelector" texts <| .optional "os" os <| .optional "overhead" texts <|
  .optional "preemptionPolicy" text <| .optional "priority" int32 <|
  .optional "priorityClassName" text <| .optional "readinessGates" (.list readinessGate) <|
  .optional "restartPolicy" text <| .optional "runtimeClassName" text <|
  .optional "schedulerName" text <| .optional "securityContext" podSecurity <|
  .optional "serviceAccount" text <| .optional "serviceAccountName" text <|
  .optional "setHostnameAsFQDN" bool <| .optional "shareProcessNamespace" bool <|
  .optional "subdomain" text <| .optional "terminationGracePeriodSeconds" int64 <|
  .optional "tolerations" (.list toleration) <|
  .optional "topologySpreadConstraints" (.list spreadConstraint) <|
  .optional "volumes" (.list volume) .done

end Pod

/-- What is wanted of a pod. -/
structure PodSpec (τ : Type := Instant) where
  row : Pod.row.Value τ

/-- The codec of `PodSpec`. -/
def PodSpec.codec {τ : Type} [Timed τ] : Codec (PodSpec τ) :=
  Codec.object <| Fields.as Pod.row.fields PodSpec.mk PodSpec.row

end PreviewInstaller.Cluster
